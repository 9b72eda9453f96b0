import PollWatch.Shell.Syntax
/-!
# Taking pieces off a command line

A reader stands somewhere in a command line. It skips blanks and comments, looks for reserved
words and operators, and refuses what cannot stand next. Words that need no nested reading are
taken apart here.
-/

namespace PollWatch.Shell

/-- Why a text is no command. -/
inductive SyntaxFault where
  /-- Something stands where it may not; perhaps something else was needed. -/
  | unexpected (found : String) (needed? : Option String)
  | openQuote
  | openBackquote
  | openBrace
  | openArithmetic
  | loopVariable
  | functionName
  | tooDeep

namespace SyntaxFault

/-- The text of a fault. -/
def message : SyntaxFault → String
  | .unexpected found none => found ++ " unexpected"
  | .unexpected found (some needed) =>
    found ++ " unexpected (expecting \"" ++ needed ++ "\")"
  | .openQuote => "Unterminated quoted string"
  | .openBackquote => "EOF in backquote substitution"
  | .openBrace => "Missing '\x7d'"
  | .openArithmetic => "Missing '))'"
  | .loopVariable => "Bad for loop variable"
  | .functionName => "Bad function name"
  | .tooDeep => "too deeply nested"

end SyntaxFault

/-- A here-document whose text has not been read yet. -/
structure Awaited where
  number : Nat
  delimiter : Chars
  isQuoted : Bool
  /-- Tabs at the start of lines are left out. -/
  cutsTabs : Bool

/-- A place in a command line. -/
structure Reader where
  rest : Chars
  line : Nat := 1
  awaited : List Awaited := []
  /-- The here-documents read so far, by number. -/
  documents : List (Nat × Word) := []
  next : Nat := 0

/-- Reading, which may fail with the number of the line. -/
abbrev Reading := StateT Reader (Except (SyntaxFault × Nat))

namespace Reading

/-- Fail at the present line. -/
def refuse {α : Type} (f : SyntaxFault) : Reading α := do
  let r ← get
  throw (f, r.line)

/-- What is left to read. -/
def left : Reading Chars := do return (← get).rest

/-- Go on with `cs`, after `lines` more lines. -/
def goOn (cs : Chars) (lines : Nat := 0) : Reading Unit :=
  modify fun r => { r with rest := cs, line := r.line + lines }

/-- How many line ends are in a text. -/
def lineEnds (cs : Chars) : Nat := (cs.filter (· = '\n')).length

/-- A character that ends a word. -/
def isBreak (c : Char) : Bool := c ∈ " \t\n;&|<>()".toList

/-- A character that begins a quotation or an expansion. -/
def isQuoting (c : Char) : Bool := c ∈ "'\"\\$\x60".toList

/-- A character that may begin the name of a variable. -/
def beginsName (c : Char) : Bool := c.isAlpha || c = '_'

/-- A character that may stand in the name of a variable. -/
def inName (c : Char) : Bool := c.isAlphanum || c = '_'

/-- A proper name of a variable. -/
def isName (cs : Chars) : Bool :=
  match cs with
  | [] => false
  | c :: r => beginsName c && r.all inName

/-- Skip blanks, joined lines and a comment. -/
def skipFrom : Chars → Nat → Chars × Nat
  | ' ' :: r, n => skipFrom r n
  | '\t' :: r, n => skipFrom r n
  | '\\' :: '\n' :: r, n => skipFrom r (n + 1)
  | '#' :: r, n => (r.dropWhile (· ≠ '\n'), n)
  | cs, n => (cs, n)

/-- Skip blanks, joined lines and a comment. -/
def skip : Reading Unit := do
  let (cs, n) := skipFrom (← left) 0
  goOn cs n

/-- The words that have a meaning of their own where a command begins. -/
def reserved : List String :=
  ["!", "case", "do", "done", "elif", "else", "esac", "fi", "for", "if", "in", "then", "until",
    "while", "\x7b", "\x7d"]

/-- The reserved word that stands next, if one does. -/
def keyword? : Reading (Option String) := do
  let cs ← left
  let w := cs.takeWhile fun c => !isBreak c && !isQuoting c
  match cs.drop w.length with
  | c :: _ =>
    if isBreak c then return reserved.find? (·.toList = w) else return none
  | [] => return reserved.find? (·.toList = w)

/-- The operators, longer ones before their beginnings. -/
def operators : List String := ["&&", "&", "||", "|", ";;", ";", "(", ")"]

/-- The operator that stands next, if one does. -/
def operator? : Reading (Option String) := do
  let cs ← left
  return operators.find? fun o => o.toList.isPrefixOf cs

/-- A quoted name for a message. -/
def shown (s : String) : String := "\"" ++ s ++ "\""

/-- Refuse what stands next. -/
def refuseNext {α : Type} (needed? : Option String) : Reading α := do
  let found ← do
    match ← left with
    | [] => pure "end of file"
    | '\n' :: _ => pure "newline"
    | '<' :: _ => pure "redirection"
    | '>' :: _ => pure "redirection"
    | _ =>
      match ← operator? with
      | some o => pure (shown o)
      | none =>
        match ← keyword? with
        | some k => pure (shown k)
        | none => pure "word"
  refuse (.unexpected found needed?)

/-- Take an operator that has to stand next. -/
def takeOperator (o : String) : Reading Unit := do
  skip
  if (← operator?) = some o then goOn ((← left).drop o.length) else refuseNext (some o)

/-- Take a reserved word that has to stand next. -/
def takeKeyword (k : String) : Reading Unit := do
  skip
  if (← keyword?) = some k then goOn ((← left).drop k.length) else refuseNext (some k)

/-- Parts with one more character that is not quoted. -/
def addPlain (c : Char) : List Part → List Part
  | .plain cs :: ps => .plain (cs ++ [c]) :: ps
  | ps => .plain [c] :: ps

/-- Parts with one more quoted character. -/
def addQuoted (c : Char) : List Part → List Part
  | .quoted cs :: ps => .quoted (cs ++ [c]) :: ps
  | ps => .quoted [c] :: ps

/-- The text up to a backquote, in which a backslash takes the meaning of the next character. -/
def backquoted (inQuotes : Bool) : Chars → Option (Chars × Chars)
  | [] => none
  | '\x60' :: r => some ([], r)
  | '\\' :: c :: r =>
    if c = '\\' ∨ c = '$' ∨ c = '\x60' ∨ (inQuotes ∧ c = '"') then
      (backquoted inQuotes r).map fun p => (c :: p.1, p.2)
    else (backquoted inQuotes r).map fun p => ('\\' :: c :: p.1, p.2)
  | c :: r => (backquoted inQuotes r).map fun p => (c :: p.1, p.2)

/-- The lines of a here-document and what follows it. -/
def documentLines (a : Awaited) : Nat → Chars → Chars → Chars × Chars
  | 0, body, cs => (body, cs)
  | n + 1, body, cs =>
    if cs = [] then (body, [])
    else
      let whole := cs.takeWhile (· ≠ '\n')
      let after := (cs.drop whole.length).drop 1
      let line := if a.cutsTabs then whole.dropWhile (· = '\t') else whole
      if line = a.delimiter then (body, after)
      else documentLines a n (body ++ line ++ ['\n']) after

/-- The text of a word and whether any of it is quoted; for the delimiter of a here-document. -/
def delimiterOf (w : Word) : Chars × Bool :=
  (w.flatMap fun
    | .plain cs => cs
    | .quoted cs => cs
    | _ => [],
    w.any fun
    | .quoted _ => true
    | _ => false)

/-- The name and value of a word that is an assignment. -/
def assignment? (w : Word) : Option (Chars × Word) :=
  match w with
  | .plain cs :: ps =>
    let name := cs.takeWhile (· ≠ '=')
    match cs.drop name.length with
    | '=' :: value =>
      if isName name then some (name, if value = [] then ps else .plain value :: ps) else none
    | _ => none
  | _ => none

/-- The name that a word is, if nothing of it is quoted or expanded. -/
def plainWord? : Word → Option Chars
  | [.plain cs] => some cs
  | _ => none

/-- The redirection operators, longer ones before their beginnings. -/
def redirectOperators : List String := ["<<-", "<<", "<&", "<>", "<", ">>", ">&", ">|", ">"]

/-- The digits in front of a redirection operator, the operator, and what follows. -/
def redirectOperator? (cs : Chars) : Option (Option Nat × String × Chars) :=
  let digits := cs.takeWhile Char.isDigit
  let cs' := cs.drop digits.length
  match redirectOperators.find? fun o => o.toList.isPrefixOf cs' with
  | some o =>
    some (if digits = [] then none
      else some (digits.foldl (fun n c => n * 10 + (c.toNat - 48)) 0), o, cs'.drop o.length)
  | none => none

end Reading

end PollWatch.Shell
