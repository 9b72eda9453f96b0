import PollWatch.Shell.Utility.Regex
/-!
# Editing lines

A script of commands, each perhaps for certain lines only, is carried out on every line: replacing
text, deleting, printing, stopping.
-/

namespace PollWatch.Shell.Utility

/-- Which lines a command is for. -/
inductive Address where
  | line (n : Nat)
  | last
  | holding (x : Regex)

/-- What a command does with a line. -/
inductive EditAction where
  | replace (x : Regex) (by_ : Chars) (everywhere prints : Bool)
  | delete
  | print
  | quit

/-- A command of a script: its lines, from one to another, and what it does. -/
structure EditCommand where
  first? : Option Address := none
  last? : Option Address := none
  negated : Bool := false
  action : EditAction

/-- The text up to a delimiter and what follows it. A backslash makes the delimiter ordinary. -/
def upTo (d : Char) : Chars → Chars × Chars
  | [] => ([], [])
  | '\\' :: c :: r =>
    let (a, b) := upTo d r
    if c = d then (c :: a, b) else ('\\' :: c :: a, b)
  | c :: r =>
    if c = d then ([], r)
    else
      let (a, b) := upTo d r
      (c :: a, b)

/-- An address at the front of a command. -/
def address? (extended : Bool) (cs : Chars) : Option (Address × Chars) :=
  match cs with
  | '$' :: r => some (.last, r)
  | '/' :: r =>
    let (x, rest) := upTo '/' r
    some (.holding (.ofChars extended x), rest)
  | cs =>
    let ds := cs.takeWhile Char.isDigit
    (decimal? ds).map fun n => (.line n, cs.drop ds.length)

/-- The commands of a script, and whether all of it was understood. The number bounds how many
there are. -/
def editCommands (extended : Bool) : Nat → Chars → Option (List EditCommand)
  | 0, _ => some []
  | n + 1, cs =>
    let cs := cs.dropWhile fun c => c = ' ' || c = ';' || c = '\n'
    if cs = [] then some []
    else do
      let (first?, cs) := match address? extended cs with
        | some (a, r) => (some a, r)
        | none => (none, cs)
      let (last?, cs) := match cs with
        | ',' :: r =>
          match address? extended r with
          | some (a, r) => (some a, r)
          | none => (none, cs)
        | cs => (none, cs)
      let cs := cs.dropWhile (· = ' ')
      let (negated, cs) := match cs with
        | '!' :: r => (true, r)
        | r => (false, r)
      let (action, rest) ← match cs with
        | 's' :: d :: r =>
          let (x, r) := upTo d r
          let (y, r) := upTo d r
          let flags := r.takeWhile fun c => c = 'g' || c = 'p'
          some (EditAction.replace (.ofChars extended x) y ('g' ∈ flags) ('p' ∈ flags),
            r.drop flags.length)
        | 'd' :: r => some (.delete, r)
        | 'p' :: r => some (.print, r)
        | 'q' :: r => some (.quit, r)
        | _ => none
      let more ← editCommands extended n rest
      return { first? := first?, last? := last?, negated := negated, action := action } :: more

/-- The text that stands in place of a match. -/
def substitute (found : Chars) : Chars → Chars
  | [] => []
  | '&' :: r => found ++ substitute found r
  | '\\' :: 'n' :: r => '\n' :: substitute found r
  | '\\' :: c :: r => c :: substitute found r
  | c :: r => c :: substitute found r

/-- A text with the first match replaced, or every match, and whether there was one. The number
bounds how many there are. -/
def replaceIn (x : Regex) (new : Chars) (everywhere : Bool) : Nat → Chars → Chars × Bool
  | 0, cs => (cs, false)
  | n + 1, cs =>
    match x.find? [] cs with
    | none => (cs, false)
    | some (before, found, rest) =>
      let front := before ++ substitute found new
      if !everywhere || x.atStart then (front ++ rest, true)
      else if found = [] then
        match rest with
        | [] => (front, true)
        | c :: r => (front ++ c :: (replaceIn x new everywhere n r).1, true)
      else (front ++ (if rest = [] then [] else (replaceIn x new everywhere n rest).1), true)

/-- Whether an address is that of a line. -/
def Address.isAt (a : Address) (number total : Nat) (l : Chars) : Bool :=
  match a with
  | .line n => n = number
  | .last => number = total
  | .holding x => x.isFound false l

/-- Whether a command is for a line. `open_` says that a range begun earlier goes on. The second
answer says whether a range goes on behind this line. -/
def EditCommand.isFor (e : EditCommand) (open_ : Bool) (number total : Nat) (l : Chars) :
    Bool × Bool :=
  let (here, goesOn) := match e.first?, e.last? with
    | none, _ => (true, false)
    | some a, none => (a.isAt number total l, false)
    | some a, some b =>
      if open_ then (true, !b.isAt number total l)
      else if a.isAt number total l then
        (true, match b with
          | .line n => number < n
          | _ => true)
      else (false, false)
  (here != e.negated, goesOn)

/-- The result of the commands for one line. -/
structure Edited where
  line : Chars
  printed : Chars := []
  isDeleted : Bool := false
  stops : Bool := false
  /-- For each command, whether its range goes on. -/
  ranges : List Bool := []

/-- Carry out commands on a line. -/
def editLine (number total : Nat) : List (EditCommand × Bool) → Edited → Edited
  | [], s => s
  | (e, open_) :: es, s =>
    let (here, goesOn) := e.isFor open_ number total s.line
    let s := { s with ranges := s.ranges ++ [goesOn] }
    if s.isDeleted || s.stops || !here then editLine number total es s
    else
      editLine number total es <|
        match e.action with
        | .replace x new everywhere prints =>
          let (l, changed) := replaceIn x new everywhere (s.line.length + 1) s.line
          { s with
            line := l
            printed := s.printed ++ if changed && prints then l ++ ['\n'] else [] }
        | .delete => { s with isDeleted := true }
        | .print => { s with printed := s.printed ++ s.line ++ ['\n'] }
        | .quit => { s with stops := true }

/-- Carry out commands on all lines. -/
def editLines (es : List EditCommand) (quiet : Bool) (total : Nat) :
    Nat → List Bool → List Chars → Chars
  | _, _, [] => []
  | number, ranges, l :: ls =>
    let s := editLine number total (es.zip ranges) { line := l }
    let shownLine := if quiet || s.isDeleted then [] else s.line ++ ['\n']
    s.printed ++ shownLine
      ++ if s.stops then [] else editLines es quiet total (number + 1) s.ranges ls

/-- Edit lines by a script. -/
def sed (c : Call) : Ending :=
  let (os, ws) := options ['e'] c.arguments
  let extended := isGiven os 'E' || isGiven os 'r'
  let given := (os.filter (·.1 = 'e')).map (·.2)
  let (scripts, files) := match given, ws with
    | [], w :: ws => ([w], ws)
    | given, ws => (given, ws)
  let script := ['\n'].intercalate scripts
  match editCommands extended (script.length + 1) script with
  | none => c.quiet.fault c "-e expression #1, char 1: unknown command"
  | some es =>
    let edited (cs : Chars) : Chars :=
      let ls := linesOf cs
      let out := editLines es (isGiven os 'n') ls.length 1 (es.map fun _ => false) ls
      if cs.getLast? = some '\n' ∨ out = [] then out else out.dropLast
    if isGiven os 'i' then
      files.foldl (fun e w =>
        match e.host.read (toPath w) with
        | .error n => e.fault c ("can't read " ++ plainComplaint w n)
        | .ok b =>
          match e.host.write (toPath w) (toBytes (edited (ofBytes b))) with
          | .ok h => { e with host := h }
          | .error n => e.fault c ("couldn't open file " ++ plainComplaint w n)) c.quiet
    else
      let (found, e) := readAll c files fun w n => "can't read " ++ plainComplaint w n
      let e := if e.status = 0 then e else { e with status := 2 }
      e.add (edited (found.flatMap (·.2)))

end PollWatch.Shell.Utility
