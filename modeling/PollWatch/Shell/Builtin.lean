import PollWatch.Shell.Condition
import PollWatch.Shell.Parser
import PollWatch.Shell.Print
import PollWatch.Shell.Process
import PollWatch.Shell.Signals
/-!
# Commands of the shell itself

The commands that the shell carries out without a program, as far as they do not run other
commands. Some are special: a fault in them ends the shell.
-/

namespace PollWatch.Shell.Builtin

/-- Commands whose faults end the shell, and before which assignments last. -/
def special : List String :=
  [".", ":", "break", "continue", "eval", "exec", "exit", "export", "readonly", "return", "set",
    "shift", "times", "trap", "unset"]

/-- Write output; if that is refused, say so and fail. -/
def put (name cs : Chars) (status : Nat := 0) : Act Nat := do
  match ← Act.write 1 cs with
  | .ok () => return status
  | .error _ => do
    Act.warn (name ++ ": I/O error".toList)
    return status ||| 1

/-- Complain and fail. -/
def complain (text : Chars) (status : Nat := 2) : Act Nat := do
  Act.warn text
  return status

/-- The number that a word denotes. Anything but digits, or a number of more than 31 bits, is a
fault that ends the shell. -/
def numberOrAbort (cs : Chars) : Act Nat :=
  if cs ≠ [] ∧ cs.all Char.isDigit ∧ Print.number cs < 2147483648 then return Print.number cs
  else Act.abort ("Illegal number: ".toList ++ cs)

/-- End the shell. -/
def exit (arguments : List Chars) : Act Nat := do
  match arguments with
  | [] => Act.stop .exits
  | cs :: _ => do
    let n ← numberOrAbort cs
    Act.setStatus n
    Act.stop .exits

/-- Come back from a function. -/
def return_ (arguments : List Chars) : Act Nat := do
  match arguments with
  | [] => Act.stop .returns
  | cs :: _ => do
    let n ← numberOrAbort cs
    Act.setStatus n
    Act.stop .returns

/-- Leave loops, or go on with the next round of one. -/
def leave (flow : Nat → Flow) (arguments : List Chars) : Act Nat := do
  let n ← match arguments with
    | [] => pure 1
    | cs :: _ => numberOrAbort cs
  let nested := (← get).loops
  if nested = 0 ∨ n = 0 then return 0
  else do
    Act.setStatus 0
    Act.stop (flow (min n nested))

/-- Go to another directory. -/
def cd (arguments : List Chars) : Act Nat := do
  let p ← get
  let arguments := arguments.filter fun w => w ∉ ["-P".toList, "-L".toList, "--".toList]
  let isBack := arguments.head? = some ['-']
  let target := match arguments with
    | [] => (p.value? "HOME".toList).getD []
    | ['-'] :: _ => (p.value? "OLDPWD".toList).getD []
    | w :: _ => w
  if target = [] ∧ arguments = [] then return 0
  else
    let path := if target = [] then Path.dot else Path.ofBytes (toBytes target)
    match p.machine.host.find true path with
    | .ok (q, .directory _) => do
      let show_ (place : Place) : Chars := ofBytes (Host.pathOf place).toBytes
      let m := { p.machine with host := { p.machine.host with here := q } }
      set { p with machine := m }
      Act.assign "OLDPWD".toList (show_ p.machine.host.here)
      Act.assign "PWD".toList (show_ q)
      if isBack then put "cd".toList (show_ q ++ ['\n']) else return 0
    | _ => complain ("can't cd to ".toList ++ target)

/-- Split a word at its first equals sign. -/
def splitAssignment (w : Chars) : Chars × Option Chars :=
  let name := w.takeWhile (· ≠ '=')
  match w.drop name.length with
  | _ :: value => (name, some value)
  | [] => (name, none)

/-- Mark variables, and assign to them where a value is given. -/
def mark (f : Variable → Variable) (arguments : List Chars) : Act Nat := do
  for w in arguments.filter (· ≠ "-p".toList) do
    let (name, value?) := splitAssignment w
    if !Reading.isName name then
      Act.abort (name ++ ": bad variable name".toList)
    match value? with
    | some v => Act.assign name v
    | none => pure ()
    modify fun p => p.setVariable name (f ((p.bindings.lookup name).getD {}))
  return 0

/-- Make variables local to the function being run. -/
def local_ (arguments : List Chars) : Act Nat := do
  if (← get).frames = [] then Act.abort "not in a function".toList
  for w in arguments do
    let (name, value?) := splitAssignment w
    if !Reading.isName name then
      Act.abort (name ++ ": bad variable name".toList)
    modify fun p =>
      match p.frames with
      | f :: fs =>
        if f.any (·.1 = name) then p
        else { p with frames := ((name, p.bindings.lookup name) :: f) :: fs }
      | [] => p
    match value? with
    | some v => Act.assign name v
    | none => pure ()
  return 0

/-- Forget variables or functions. -/
def unset (arguments : List Chars) : Act Nat := do
  let isFunction := arguments.head? = some "-f".toList
  for w in arguments.filter (·.head? ≠ some '-') do
    if isFunction then
      modify fun p => { p with functions := p.functions.filter (·.1 ≠ w) }
    else
      if !Reading.isName w then Act.abort (w ++ ": bad variable name".toList)
      if ((← get).bindings.lookup w).any (·.isReadOnly) then
        Act.abort (w ++ ": is read only".toList)
      modify fun p => p.dropVariable w
  return 0

/-- The letters of options that have names. -/
def namedOptions : List (String × Char) :=
  [("allexport", 'a'), ("errexit", 'e'), ("noexec", 'n'), ("noglob", 'f'), ("nounset", 'u'),
    ("verbose", 'v'), ("xtrace", 'x'), ("noclobber", 'C')]

/-- Set or clear an option. -/
def switch (on : Bool) (o : Char) : Act Unit :=
  modify fun p =>
    { p with options := if on then o :: p.options.filter (· ≠ o) else p.options.filter (· ≠ o) }

/-- Set options and arguments. -/
def set_ : List Chars → Act Nat
  | [] => return 0
  | ['-', '-'] :: ws => do
    modify fun p => { p with arguments := ws }
    return 0
  | [s, 'o'] :: w :: ws =>
    if s = '-' ∨ s = '+' then
      match namedOptions.find? (·.1.toList = w) with
      | some (_, o) => do
        switch (s = '-') o
        set_ ws
      | none => Act.abort ("Illegal option -o ".toList ++ w)
    else do
      modify fun p => { p with arguments := [s, 'o'] :: w :: ws }
      return 0
  | (s :: c :: r) :: ws =>
    if s = '-' ∨ s = '+' then do
      for o in c :: r do
        if o ∈ "aefnuvxCbhmi".toList then switch (s = '-') o
        else Act.abort ("Illegal option -".toList ++ [o])
      set_ ws
    else do
      modify fun p => { p with arguments := (s :: c :: r) :: ws }
      return 0
  | ws => do
    modify fun p => { p with arguments := ws }
    return 0

/-- Drop the first arguments. -/
def shift (arguments : List Chars) : Act Nat := do
  let n ← match arguments with
    | [] => pure 1
    | cs :: _ => numberOrAbort cs
  let p ← get
  if p.arguments.length < n then Act.abort "can't shift that many".toList
  else do
    set { p with arguments := p.arguments.drop n }
    return 0

/-- Take a line from standard input; false if the input ends within it. A backslash joins lines
unless `raw`. The number bounds the length. -/
def takeLine (raw : Bool) : Nat → Chars → List (Char × Bool) × Chars × Bool
  | 0, cs => ([], cs, false)
  | n + 1, cs =>
    let more (x : Char × Bool) (r : Chars) : List (Char × Bool) × Chars × Bool :=
      let (l, rest, ok) := takeLine raw n r
      (x :: l, rest, ok)
    match cs with
    | [] => ([], [], false)
    | '\n' :: r => ([], r, true)
    | '\\' :: c :: r =>
      if raw then more ('\\', false) (c :: r)
      else if c = '\n' then takeLine raw n r
      else more (c, true) r
    | c :: r => more (c, false) r

/-- Share out the characters of a line among variables. Each is marked where a backslash stood
before it, and then separates nothing. The last variable takes the rest. -/
def shareOut (separators : Chars) (line : List (Char × Bool)) : Nat → List Chars
  | 0 => []
  | 1 =>
    let isBlank (x : Char × Bool) : Bool :=
      !x.2 && x.1 ∈ separators && (x.1 = ' ' || x.1 = '\t' || x.1 = '\n')
    [(((line.dropWhile isBlank).reverse.dropWhile isBlank).reverse).map (·.1)]
  | n + 1 =>
    let isSeparator (x : Char × Bool) : Bool := !x.2 && x.1 ∈ separators
    let isBlank (x : Char × Bool) : Bool :=
      isSeparator x && (x.1 = ' ' || x.1 = '\t' || x.1 = '\n')
    let body := line.dropWhile isBlank
    let word := body.takeWhile fun x => !isSeparator x
    let rest := (body.drop word.length).dropWhile isBlank
    let rest := match rest with
      | x :: r => if isSeparator x then r else x :: r
      | [] => []
    word.map (·.1) :: shareOut separators rest n

/-- Read a line into variables. -/
def read (arguments : List Chars) : Act Nat := do
  let raw := arguments.head? = some "-r".toList
  let names := if raw then arguments.drop 1 else arguments
  if names = [] then complain "arg count".toList
  else do
    let p ← get
    match p.descriptors.lookup 0 with
    | none => return 1
    | some c => do
      let cs := p.machine.available c
      let (line, rest, ok) := takeLine raw (cs.length + 1) cs
      set { p with machine := p.machine.consume c (cs.length - rest.length) }
      for (name, value) in names.zip (shareOut p.separators line names.length) do
        Act.assign name value
      return if ok then 0 else 1

/-- Arrange for commands to be run on signals. -/
def trap (arguments : List Chars) : Act Nat := do
  let (action?, signals) : Option Chars × List Chars := match arguments with
    | ['-', '-'] :: a :: r => (some a, r)
    | ['-'] :: r => (none, r)
    | [w] => (none, [w])
    | w :: r =>
      if (Signals.ofChars? w).isSome ∧ w.all Char.isDigit then (none, w :: r) else (some w, r)
    | [] => (none, [])
  for s in signals do
    match Signals.ofChars? s with
    | none => do
      let _ ← Act.write 2 ("trap: ".toList ++ s ++ ": bad trap\n".toList)
      return 1
    | some n => modify fun p =>
      let others := p.traps.filter (·.1 ≠ n)
      { p with traps := match action? with
          | some a => (n, a) :: others
          | none => others }
  if arguments = [] then
    let traps := (← get).traps.mergeSort fun a b => a.1 ≤ b.1
    put "trap".toList (traps.flatMap fun (n, a) =>
      "trap -- '".toList ++ a ++ "' ".toList ++ (Signals.nameOf n).toList ++ ['\n'])
  else return 0

/-- How to send a signal. -/
def usage : Chars :=
  "Usage: kill [-s sigspec | -signum | -sigspec] [pid | job]... or\nkill -l [exitstatus]".toList

/-- Print the names of signals. -/
def signalNames (arguments : List Chars) : Act Nat :=
  put "kill".toList (match arguments with
    | [] => Signals.names.flatMap fun s => s.toList ++ ['\n']
    | ws => ws.flatMap fun w =>
      (match (Signals.ofChars? w).map fun n => n % 128 with
        | some n => (Signals.nameOf n).toList
        | none => w) ++ ['\n'])

/-- Send a signal to processes. A job in the background that has not been waited for ends by it. -/
def kill (arguments : List Chars) : Act Nat := do
  if arguments.head? = some "-l".toList then return ← signalNames (arguments.drop 1)
  let (signal?, targets) : Option Nat × List Chars := match arguments with
    | ['-', 's'] :: s :: r => (Signals.ofChars? s, r)
    | ['-', '-'] :: r => (some Signals.terminate, r)
    | ('-' :: c :: s) :: r => (Signals.ofChars? (c :: s), r)
    | r => (some Signals.terminate, r)
  match signal?, targets with
  | none, _ =>
    complain ("Illegal option -".toList ++ ((arguments.headD []).drop 1).take 1)
  | _, [] => complain usage
  | some signal, targets => do
    let mut status := 0
    for t in targets.filter (· ≠ "--".toList) do
      if t = [] ∨ !t.all Char.isDigit then
        status ← complain ("Illegal number: ".toList ++ t)
      else
        let n := Print.number t
        let p ← get
        if n = p.number ∨ n = p.shell ∨ n = p.caller then
          set { p with machine :=
            { p.machine with signals := p.machine.signals ++ [(n, signal)] } }
        else if p.jobs.any (·.1 = n) then
          if !Signals.isHarmless signal then
            set { p with
              jobs := p.jobs.map fun (j : Nat × Nat) => if j.1 = n then (n, 128 + signal) else j }
        else
          status ← complain "No such process\n".toList 1
    return status

/-- Wait for processes in the background; they have ended already. -/
def wait (arguments : List Chars) : Act Nat := do
  let mut status := 0
  for w in arguments do
    let p ← get
    match p.jobs.find? fun (j : Nat × Nat) => (toString j.1).toList = w with
    | some j => do
      set { p with jobs := p.jobs.filter fun (i : Nat × Nat) => i.1 ≠ j.1 }
      if 128 < j.2 ∧ Signals.farewell (j.2 - 128) ≠ [] then
        let _ ← Act.write 2 (Signals.farewell (j.2 - 128) ++ ['\n'])
      status := j.2
    | none => status := 127
  return status

/-- Go through the options among the arguments, one at a time. -/
def getopts (arguments : List Chars) : Act Nat := do
  match arguments with
  | list :: name :: given => do
    let p ← get
    let words := if given = [] then p.arguments else given
    let position := (p.value? "OPTIND".toList).getD ['1']
    let index := Print.number (position.filter Char.isDigit)
    let inside := (p.value? "OPTPOS".toList).elim 0 Print.number
    match words.drop (index - 1) with
    | ('-' :: c :: r) :: more =>
      if c = '-' ∧ r = [] then do
        Act.assign "OPTIND".toList (toString (index + 1)).toList
        Act.assign name ['?']
        return 1
      else
        let letters := (c :: r).drop inside
        let o := letters.headD '?'
        let rest := letters.drop 1
        let next (words : Nat) (inside : Nat) : Act Unit := do
          Act.assign "OPTIND".toList (toString (index + words)).toList
          Act.assign "OPTPOS".toList (toString inside).toList
        let found := list.dropWhile (· ≠ o)
        if found = [] ∨ o = ':' then do
          if rest = [] then next 1 0 else next 0 (inside + 1)
          if list.head? ≠ some ':' then
            let _ ← Act.write 2 ("Illegal option -".toList ++ [o, '\n'])
          Act.assign name ['?']
          return 0
        else if (found.drop 1).head? = some ':' then
          match rest, more with
          | [], w :: _ => do
            next 2 0
            Act.assign "OPTARG".toList w
            Act.assign name [o]
            return 0
          | [], [] => do
            next 1 0
            let _ ← Act.write 2 ("No arg for -".toList ++ [o] ++ " option\n".toList)
            Act.assign name ['?']
            return 0
          | rest, _ => do
            next 1 0
            Act.assign "OPTARG".toList rest
            Act.assign name [o]
            return 0
        else do
          if rest = [] then next 1 0 else next 0 (inside + 1)
          Act.assign name [o]
          return 0
    | _ => do
      Act.assign name ['?']
      return 1
  | _ => complain "Usage: getopts optstring var [arg...]".toList

/-- Test a condition. -/
def test (name : Chars) (arguments : List Chars) : Act Nat := do
  let h := (← get).machine.host
  let value := if name = ['['] then Condition.holdsInBrackets h arguments
    else Condition.holds h arguments
  match value with
  | .ok b => return if b then 0 else 1
  | .error f => complain f.message

/-- Print arguments in a format. -/
def printf (arguments : List Chars) : Act Nat := do
  match arguments with
  | [] => complain "usage: printf format [arg ...]".toList
  | f :: ws => do
    let r := Print.format f ws
    for m in r.faults do
      Act.warn m
    let status ← put "printf".toList r.output (if r.faults = [] then 0 else 1)
    match r.bad? with
    | some d => complain (d ++ ": invalid directive".toList)
    | none => return status

/-- The command of the shell with a name. -/
def ofName? (name : Chars) : Option (List Chars → Act Nat) :=
  match String.ofList name with
  | ":" => some fun _ => return 0
  | "true" => some fun _ => return 0
  | "false" => some fun _ => return 1
  | "echo" => some fun ws => put name (Print.echo ws)
  | "printf" => some printf
  | "test" => some (test name)
  | "[" => some (test name)
  | "cd" => some cd
  | "chdir" => some cd
  | "pwd" => some fun _ => do
    put name (ofBytes (Host.pathOf (← get).machine.host.here).toBytes ++ ['\n'])
  | "exit" => some exit
  | "return" => some return_
  | "break" => some (leave .breaks)
  | "continue" => some (leave .continues)
  | "export" => some (mark fun v => { v with isExported := true })
  | "readonly" => some (mark fun v => { v with isReadOnly := true })
  | "local" => some local_
  | "unset" => some unset
  | "set" => some set_
  | "shift" => some shift
  | "read" => some read
  | "trap" => some trap
  | "kill" => some kill
  | "wait" => some wait
  | "getopts" => some getopts
  | "umask" => some fun ws => if ws = [] then put name "0022\n".toList else return 0
  | "times" => some fun _ => put name "0m0.00s 0m0.00s\n0m0.00s 0m0.00s\n".toList
  | "hash" => some fun _ => return 0
  | "alias" => some fun _ => return 0
  | "unalias" => some fun _ => return 0
  | "ulimit" => some fun _ => return 0
  | "jobs" => some fun _ => return 0
  | _ => none

end PollWatch.Shell.Builtin
