import PollWatch.Shell.Arithmetic
import PollWatch.Shell.Fields
import PollWatch.Shell.Parameter
import PollWatch.Shell.Program
/-!
# Running shell commands

Words are expanded to fields, and commands are run in a process. The functions that run nested
structure carry a number that bounds their depth, and give up with `Flow.unfinished` when it is
used up.

A command in tail position is the last thing that its shell does. A program there takes the place
of the shell, so that a signal that ends the program ends the shell.
-/

namespace PollWatch.Shell

open Act

mutual

/-- Expand a part of a word. -/
def expandPart : Nat → Part → Act (List Item)
  | 0, _ => stop .unfinished
  | n + 1, part => do
    match part with
    | .plain cs => return Item.ofChars false false cs
    | .quoted cs => return .mark :: Item.ofChars true false cs
    | .command c q => do
      let cs ← capture n c
      return (if q then [.mark] else []) ++ Item.ofChars q true (withoutLineEnds cs)
    | .arithmetic e q => do
      let cs := charsOf (joinItems (← expandParts n e))
      let p ← get
      match Arithmetic.evaluate p.value? cs with
      | .ok (v, assigned) => do
        for (name, value) in assigned do
          assign name (toString value).toList
        return Item.ofChars q true (toString v).toList
      | .error f => abort (f.message (String.ofList cs)).toList
    | .parameter name m q => do
      let p ← get
      let value := p.parameter name
      let items (v : Value) : List Item :=
        match v with
        | .unset => []
        | .one cs => (if q then [.mark] else []) ++ Item.ofChars q true cs
        | .all css =>
          if q ∧ name = ['*'] then
            .mark :: Item.ofChars true true ((p.separators.take 1).intercalate css)
          else
            [Item.gap].intercalate (css.map fun cs =>
              (if q then [.mark] else []) ++ Item.ofChars q true cs)
      let isNull (orEmpty : Bool) : Bool := match value with
        | .unset => true
        | .one cs => orEmpty && cs.isEmpty
        | .all css => css.isEmpty || (orEmpty && css.all List.isEmpty)
      let asText : Chars := match value with
        | .unset => []
        | .one cs => cs
        | .all css => [' '].intercalate css
      let checked : Act Unit := do
        match value with
        | .unset => if p.has 'u' then abort (name ++ ": parameter not set".toList)
        | _ => pure ()
      let wordItems (w : Word) : Act (List Item) := do
        let is ← expandParts n w
        return is.map fun
          | .glyph g => .glyph { g with isExpanded := !g.isQuoted }
          | i => i
      match m with
      | .none => do
        checked
        return items value
      | .length => do
        checked
        let count := match value with
          | .all css => css.length
          | _ => asText.length
        return Item.ofChars q true (toString count).toList
      | .fallback .default orEmpty w => if isNull orEmpty then wordItems w else return items value
      | .fallback .alternative orEmpty w => if isNull orEmpty then return [] else wordItems w
      | .fallback .assign orEmpty w =>
        if isNull orEmpty then do
          let cs := charsOf (joinItems (← expandParts n w))
          if Reading.isName name then do
            assign name cs
            return items (.one cs)
          else abort "Bad substitution".toList
        else return items value
      | .fallback .fail orEmpty w =>
        if isNull orEmpty then do
          let cs := charsOf (joinItems (← expandParts n w))
          abort (name ++ ": ".toList ++ if w = [] then
            ("parameter not set" ++ if orEmpty then " or null" else "").toList else cs)
        else return items value
      | .strip atEnd longest w => do
        checked
        let pattern := joinItems (← expandParts n w)
        return items (.one (stripped atEnd longest pattern asText))
      | .bad => abort "Bad substitution".toList

/-- Expand the parts of a word. -/
def expandParts : Nat → Word → Act (List Item)
  | 0, _ => stop .unfinished
  | _ + 1, [] => return []
  | n + 1, p :: ps => do
    let a ← expandPart n p
    let b ← expandParts n ps
    return a ++ b

/-- Expand a word to the fields that it makes. -/
def expandWord : Nat → Word → Act (List Chars)
  | 0, _ => stop .unfinished
  | n + 1, w => do
    let p ← get
    let isEmptyList := match w.filter (fun | .quoted [] => false | _ => true) with
      | [.parameter ['@'] .none true] => p.arguments.isEmpty
      | _ => false
    if isEmptyList then return []
    else do
      let items ← expandParts n (p.expandHome w)
      let p ← get
      let fields := splitFields p.separators none false items
      if p.has 'f' then return fields.map charsOf
      else return fields.flatMap (globbed p.machine.host)

/-- Expand words to fields. -/
def expandWords : Nat → List Word → Act (List Chars)
  | 0, _ => stop .unfinished
  | _ + 1, [] => return []
  | n + 1, w :: ws => do
    let a ← expandWord n w
    let b ← expandWords n ws
    return a ++ b

/-- Expand a word to one text. -/
def expandText : Nat → Word → Act Chars
  | 0, _ => stop .unfinished
  | n + 1, w => do
    let p ← get
    return charsOf (joinItems (← expandParts n (p.expandHome w)))

/-- What commands write to their output. -/
def capture : Nat → Command → Act Chars
  | 0, _ => stop .unfinished
  | n + 1, c => do
    let before := (← get).status
    let pipe ← newPipe []
    let killed? ← inChild
      (fun p => { p with descriptors := (1, .pipe pipe) :: p.descriptors.filter (·.1 ≠ 1) })
      (conclude n (run n true c))
    sayFarewell killed?
    modify fun p => { p with substituted? := some p.status, status := before }
    let p ← get
    return (p.machine.available (.pipe pipe)).filter (· ≠ '\x00')

/-- Carry out an action, and at its end the commands that are to be run at the end of the
shell. -/
def conclude : Nat → Act Unit → Act Unit
  | 0, _ => stop .unfinished
  | n + 1, a => do
    match ← attempt a with
    | .error (.killed s) => stop (.killed s)
    | .error .unfinished => stop .unfinished
    | _ => do
      let p ← get
      match p.traps.lookup 0 with
      | none => pure ()
      | some action => do
        set { p with traps := p.traps.filter (·.1 ≠ 0) }
        match ← attempt (script n action) with
        | .ok () => setStatus p.status
        | .error .exits => pure ()
        | .error f => stop f

/-- Deal with the signals that have come for this process. -/
def checkSignals : Nat → Act Unit
  | 0 => stop .unfinished
  | n + 1 => do
    let p ← get
    match p.machine.signals.find? (·.1 = p.number) with
    | none => pure ()
    | some s => do
      set { p with machine := { p.machine with signals := p.machine.signals.erase s } }
      match p.traps.lookup s.2 with
      | some action =>
        if s.2 = Signals.kill then stop (.killed s.2)
        else do
          script n action
          setStatus p.status
      | none => if Signals.isHarmless s.2 then pure () else stop (.killed s.2)
      checkSignals n

/-- Make a redirection; false, after a message, if that cannot be done. -/
def redirect : Nat → Redirect → Act Bool
  | 0, _ => stop .unfinished
  | n + 1, r => do
    match r with
    | .document fd number => do
      let w := ((← get).documents.lookup number).getD []
      let cs := charsOf (joinItems (← expandParts n w))
      let pipe ← newPipe cs
      connect fd (.pipe pipe)
      return true
    | .file fd .duplicate w => do
      let cs ← expandText n w
      if cs = ['-'] then do
        modify fun p => { p with descriptors := p.descriptors.filter (·.1 ≠ fd) }
        return true
      else if cs ≠ [] ∧ cs.all Char.isDigit then do
        match (← get).descriptors.lookup (Print.number cs) with
        | some c => do
          connect fd c
          return true
        | none => do
          warn (cs ++ ": Bad file descriptor".toList)
          return false
      else abort "Syntax error: Bad fd number".toList
    | .file fd kind w => do
      let cs ← expandText n w
      match ← openFile kind cs with
      | .ok c => do
        connect fd c
        return true
      | .error e => do
        let creates := kind ≠ .input
        let verb := if creates then "cannot create " else "cannot open "
        warn (verb.toList ++ cs ++ ": ".toList ++ openReason creates e)
        return false

/-- Make redirections one after another, up to the first that cannot be made. -/
def redirectAll : Nat → List Redirect → Act Bool
  | 0, _ => stop .unfinished
  | _ + 1, [] => return true
  | n + 1, r :: rs => do
    if ← redirect n r then redirectAll n rs else return false

/-- Expand assignments. -/
def expandAssignments : Nat → List (Chars × Word) → Act (List (Chars × Chars))
  | 0, _ => stop .unfinished
  | _ + 1, [] => return []
  | n + 1, (name, w) :: as => do
    let v ← expandText n w
    let rest ← expandAssignments n as
    return (name, v) :: rest

/-- Make assignments, each expanded when the ones before it have been made. -/
def assignAll : Nat → List (Chars × Word) → Act Unit
  | 0, _ => stop .unfinished
  | _ + 1, [] => pure ()
  | n + 1, (name, w) :: as => do
    let v ← expandText n w
    assign name v
    assignAll n as

/-- Run the commands in a text. -/
def script : Nat → Chars → Act Unit
  | 0, _ => stop .unfinished
  | n + 1, cs => do
    let p ← get
    lines n { Reader.start cs with next := p.nextDocument }

/-- Run the lines that a reader has before it. -/
def lines : Nat → Reader → Act Unit
  | 0, _ => stop .unfinished
  | n + 1, r => do
    match r.line? with
    | .error (f, line) => do
      modify fun p => { p with line := line }
      abort ("Syntax error: " ++ f.message).toList
    | .ok none => pure ()
    | .ok (some (c, r)) => do
      modify fun p => { p with
        documents := r.documents ++ p.documents
        nextDocument := max p.nextDocument r.next }
      let r := { r with documents := [] }
      run n false c
      lines n r

/-- Run a command. -/
def run : Nat → Bool → Command → Act Unit
  | 0, _, _ => stop .unfinished
  | n + 1, tail, c => do
    match c with
    | .nothing => pure ()
    | .simple line assignments words redirects => do
      modify fun p => { p with line := line }
      simple n tail assignments words redirects
      checkSignals n
      checkFailure
    | .negated c => do
      tested (run n false c)
      modify fun p => { p with status := if p.status = 0 then 1 else 0 }
    | .pipeline cs => do
      stages n (.device .null) true cs
      checkSignals n
      checkFailure
    | .both a b => do
      tested (run n false a)
      if (← get).status = 0 then run n tail b
    | .either a b => do
      tested (run n false a)
      if (← get).status ≠ 0 then run n tail b
    | .sequence a b => do
      match b with
      | .nothing => run n tail a
      | b => do
        run n false a
        run n tail b
    | .background c => do
      let number := (← get).machine.next
      let _ ← inChild
        (fun p => { p with descriptors := (0, .device .null) :: p.descriptors.filter (·.1 ≠ 0) })
        (conclude n (run n true c))
      modify fun p => { p with jobs := (number, p.status) :: p.jobs, status := 0 }
      checkSignals n
    | .subshell c => do
      let killed? ← inChild id (conclude n (run n true c))
      followChild tail killed?
      checkSignals n
      checkFailure
    | .redirected c rs => keepingDescriptors do
      if ← redirectAll n rs then run n false c else setStatus 2
      checkFailure
    | .forEach name words? body => do
      let items ← match words? with
        | some ws => expandWords n ws
        | none => do pure (← get).arguments
      setStatus 0
      keeping (fun before p => { p with loops := before.loops }) do
        modify fun p => { p with loops := p.loops + 1 }
        each n name items body
    | .select w branches => do
      let cs ← expandText n w
      choose n tail cs branches
    | .branch condition yes no => do
      tested (run n false condition)
      if (← get).status = 0 then run n tail yes
      else
        match no with
        | .nothing => setStatus 0
        | no => run n tail no
    | .loop isUntil condition body =>
      keeping (fun before p => { p with loops := before.loops }) do
        modify fun p => { p with loops := p.loops + 1 }
        repeated n isUntil condition body 0
    | .define name body => do
      modify fun p =>
        { p with functions := (name, body) :: p.functions.filter (·.1 ≠ name), status := 0 }

/-- Run the commands of a pipeline, the first with its input from a channel. -/
def stages : Nat → Channel → Bool → List Command → Act Unit
  | 0, _, _, _ => stop .unfinished
  | _ + 1, _, _, [] => pure ()
  | n + 1, input, isFirst, c :: cs => do
    let inputs (p : Process) : Process :=
      if isFirst then p
      else { p with descriptors := (0, input) :: p.descriptors.filter (·.1 ≠ 0) }
    match cs with
    | [] => do
      let killed? ← inChild inputs (conclude n (run n true c))
      sayFarewell killed?
    | cs => do
      let pipe ← newPipe []
      let outputs (p : Process) : Process :=
        { p with descriptors := (1, .pipe pipe) :: p.descriptors.filter (·.1 ≠ 1) }
      let killed? ← inChild (fun p => outputs (inputs p)) (conclude n (run n true c))
      sayFarewell killed?
      stages n (.pipe pipe) false cs

/-- Run a body once for each item. -/
def each : Nat → Chars → List Chars → Command → Act Unit
  | 0, _, _, _ => stop .unfinished
  | _ + 1, _, [], _ => pure ()
  | n + 1, name, i :: is, body => do
    assign name i
    match ← attempt (run n false body) with
    | .ok () => each n name is body
    | .error (.breaks k) => if 1 < k then stop (.breaks (k - 1)) else pure ()
    | .error (.continues k) => if 1 < k then stop (.continues (k - 1)) else each n name is body
    | .error f => stop f

/-- Run a body as long as a condition succeeds, or until it does. The last argument is the status
of the body when it was run last. -/
def repeated : Nat → Bool → Command → Command → Nat → Act Unit
  | 0, _, _, _, _ => stop .unfinished
  | n + 1, isUntil, condition, body, last => do
    let round : Act Bool := do
      tested (run n false condition)
      if ((← get).status = 0) = (isUntil = true) then return false
      else do
        run n false body
        return true
    match ← attempt round with
    | .ok true => repeated n isUntil condition body (← get).status
    | .ok false => setStatus last
    | .error (.breaks k) => if 1 < k then stop (.breaks (k - 1)) else pure ()
    | .error (.continues k) =>
      if 1 < k then stop (.continues (k - 1))
      else repeated n isUntil condition body (← get).status
    | .error f => stop f

/-- Run the first branch of which a pattern matches. -/
def choose : Nat → Bool → Chars → List (List Word × Command) → Act Unit
  | 0, _, _, _ => stop .unfinished
  | _ + 1, _, _, [] => setStatus 0
  | n + 1, tail, cs, (patterns, body) :: bs => do
    if ← anyMatches n cs patterns then
      match body with
      | .nothing => setStatus 0
      | body => run n tail body
    else choose n tail cs bs

/-- Whether one of some patterns matches a text. -/
def anyMatches : Nat → Chars → List Word → Act Bool
  | 0, _, _ => stop .unfinished
  | _ + 1, _, [] => return false
  | n + 1, cs, w :: ws => do
    let pattern := joinItems (← expandParts n w)
    if patternMatches pattern cs then return true else anyMatches n cs ws

/-- Run a simple command. -/
def simple : Nat → Bool → List (Chars × Word) → List Word → List Redirect → Act Unit
  | 0, _, _, _, _ => stop .unfinished
  | n + 1, tail, assignments, words, redirects => do
    modify fun p => { p with substituted? := none }
    let fields ← expandWords n words
    match fields with
    | [] => do
      let done ← keepingDescriptors (redirectAll n redirects)
      if done then do
        assignAll n assignments
        let p ← get
        if p.has 'x' then
          let _ ← write 2 ("+ ".toList ++ [' '].intercalate (assignments.map fun (name, _) =>
            name ++ ['='] ++ (p.value? name).getD []) ++ ['\n'])
        setStatus (p.substituted?.getD 0)
      else setStatus 2
    | name :: arguments =>
      if name = "exec".toList then do
        if ← redirectAll n redirects then
          match arguments with
          | [] => do
            assignAll n assignments
            setStatus 0
          | w :: ws => do
            assignAll n assignments
            speaking name (program n true w ws)
            stop .exits
        else do
          setStatus 2
          stop .exits
      else keepingDescriptors do
        if ← redirectAll n redirects then do
          let given ← expandAssignments n assignments
          if (← get).has 'x' then
            let shownWords := (given.map fun (k, v) => k ++ ['='] ++ v) ++ name :: arguments
            let _ ← write 2 ("+ ".toList ++ [' '].intercalate shownWords ++ ['\n'])
          if Builtin.special.any (·.toList = name) then do
            for (k, v) in given do
              assign k v
            command n tail false name arguments
          else
            let isChanged (x : Chars × Variable) : Bool := given.any (·.1 = x.1)
            keeping (fun before p =>
              if given = [] then p
              else { p with bindings :=
                before.bindings.filter isChanged
                  ++ p.bindings.filter fun x => !isChanged x }) do
              for (k, v) in given do
                assignExported k v
              command n tail false name arguments
        else do
          setStatus 2
          if Builtin.special.any (·.toList = name) then stop .exits

/-- Run a command by its name: a function unless `plain`, a command of the shell, or a program. -/
def command : Nat → Bool → Bool → Chars → List Chars → Act Unit
  | 0, _, _, _, _ => stop .unfinished
  | n + 1, tail, plain, name, arguments => do
    let p ← get
    match (if plain then none else p.functions.lookup name) with
    | some body => do
      set { p with arguments := arguments, frames := [] :: p.frames, loops := 0 }
      let r ← attempt (run n false body)
      modify fun q =>
        let q := { q with
          arguments := p.arguments
          frames := q.frames.drop 1
          loops := p.loops
          bindings := ((q.frames.headD []).foldl (fun q (k, old?) =>
            match old? with
            | some v => q.setVariable k v
            | none => q.dropVariable k) q).bindings }
        q
      match r with
      | .error .returns => pure ()
      | r => resume r
    | none => speaking name do
      match String.ofList name with
      | "eval" => do
        setStatus 0
        script n ([' '].intercalate arguments)
      | "." =>
        match arguments with
        | [] => setStatus 0
        | w :: _ =>
          match p.machine.host.read (Path.ofBytes (toBytes w)) with
          | .ok b => do
            setStatus 0
            match ← attempt (script n (ofBytes b)) with
            | .error .returns => pure ()
            | r => resume r
          | .error _ =>
            abort (if '/' ∈ w then "cannot open ".toList ++ w ++ ": No such file".toList
              else w ++ ": not found".toList)
      | "command" =>
        match arguments with
        | ['-', 'v'] :: ws => setStatus (← describe false ws)
        | ['-', 'V'] :: ws => setStatus (← describe true ws)
        | ['-', 'p'] :: w :: ws => command n tail true w ws
        | ['-', '-'] :: w :: ws => command n tail true w ws
        | w :: ws => command n tail true w ws
        | [] => setStatus 0
      | "type" => setStatus (← describe true arguments)
      | _ =>
        match Builtin.ofName? name with
        | some f => setStatus (← f arguments)
        | none => do
          modify fun q => { q with speaker? := p.speaker? }
          program n tail name arguments
where
  /-- Print how names would be understood, in words or in short. -/
  describe (inWords : Bool) (ws : List Chars) : Act Nat := do
    let p ← get
    let mut status := 0
    for w in ws do
      let isSpecial := Builtin.special.any (·.toList = w)
      let kind? : Option String :=
        if Reading.reserved.any (·.toList = w) then some "a shell keyword"
        else if (p.functions.lookup w).isSome then some "a shell function"
        else if isSpecial then some "a special shell builtin"
        else if (Builtin.ofName? w).isSome || w = "command".toList || w = "type".toList then
          some "a shell builtin"
        else none
      let found? : Option Chars := match kind?, p.program w with
        | some k, _ => some (if inWords then w ++ (" is " ++ k).toList else w)
        | none, .nowhere => none
        | none, .denied => none
        | none, _ =>
          let path := if '/' ∈ w then w else "/usr/bin/".toList ++ w
          some (if inWords then w ++ " is ".toList ++ path else path)
      match found? with
      | some cs => status ← Builtin.put "type".toList (cs ++ ['\n'])
      | none => do
        if inWords then
          let _ ← Builtin.put "type".toList (w ++ ": not found\n".toList)
        status := 127
    return status

/-- Run a program. -/
def program : Nat → Bool → Chars → List Chars → Act Unit
  | 0, _, _, _ => stop .unfinished
  | n + 1, tail, name, arguments => do
    let p ← get
    match p.program name with
    | .nowhere => do
      warn (name ++ (if name = [] then ": Permission denied" else ": not found").toList)
      setStatus 127
    | .denied => do
      warn (name ++ ": Permission denied".toList)
      setStatus 126
    | .utility f => runUtility f name arguments
    | .script path text => newShell n tail path text arguments []
    | .caller called =>
      match String.ofList called with
      | "env" => do
        let isEmptied := arguments.head? = some "-i".toList
        let arguments := if isEmptied then arguments.drop 1 else arguments
        let assigned := arguments.takeWhile ('=' ∈ ·)
        let rest := arguments.drop assigned.length
        keeping (fun before q => { q with bindings := before.bindings }) do
          if isEmptied then
            modify fun q =>
              { q with bindings := q.bindings.map fun (k, v) => (k, { v with isExported := false }) }
          for w in assigned do
            let (k, v?) := Builtin.splitAssignment w
            assignExported k (v?.getD [])
          match rest with
          | [] => do
            let q ← get
            let shown := q.environment.flatMap fun (k, v) =>
              k ++ ['='] ++ v.value?.getD [] ++ ['\n']
            setStatus (← Builtin.put "env".toList shown)
          | w :: ws => other n tail "env" w ws
      | "timeout" =>
        match arguments.dropWhile (·.head? = some '-') with
        | _ :: w :: ws => other n tail "timeout" w ws
        | _ => setStatus 125
      | "xargs" => do
        let rest := arguments.dropWhile (·.head? = some '-')
        let input ← drain
        let rest := if rest = [] then ["echo".toList] else rest
        match rest ++ inputWords input with
        | w :: ws => other n tail "xargs" w ws
        | [] => setStatus 0
      | "printenv" =>
        match arguments with
        | w :: _ =>
          match (p.environment.lookup w).bind (·.value?) with
          | some v => setStatus (← Builtin.put name (v ++ ['\n']))
          | none => setStatus 1
        | [] => setStatus (← Builtin.put name (p.environment.flatMap fun (k, v) =>
            k ++ ['='] ++ v.value?.getD [] ++ ['\n']))
      | "which" => do
        let found := arguments.filter fun w => Utility.isInstalled w
        setStatus (← Builtin.put name (Utility.unlines (found.map ("/usr/bin/".toList ++ ·)))
          (if found.length = arguments.length then 0 else 1))
      | "nice" =>
        match (match arguments with
          | ['-', 'n'] :: _ :: r => r
          | r => r) with
        | w :: ws => other n tail "nice" w ws
        | [] => setStatus (← Builtin.put "nice".toList ['0', '\n'])
      | "nohup" =>
        match arguments with
        | w :: ws => other n tail "nohup" w ws
        | [] => setStatus 125
      | _ => shell n tail name arguments []

/-- Run a program for another program, which says so if there is none. -/
def other : Nat → Bool → String → Chars → List Chars → Act Unit
  | 0, _, _, _, _ => stop .unfinished
  | n + 1, tail, caller, name, arguments => do
    let p ← get
    let say (why : String) : Act Unit := do
      let quoted := if caller = "env" then Utility.named name
        else if caller = "timeout" then "failed to run command " ++ Utility.named name
        else String.ofList name
      let _ ← write 2 (caller ++ ": " ++ quoted ++ ": " ++ why ++ "\n").toList
    match p.program name with
    | .nowhere => do
      say "No such file or directory"
      setStatus 127
    | .denied => do
      say "Permission denied"
      setStatus 126
    | _ => program n tail name arguments

/-- Run a shell as a program, with the letters of options given so far. -/
def shell : Nat → Bool → Chars → List Chars → List Char → Act Unit
  | 0, _, _, _, _ => stop .unfinished
  | n + 1, tail, name, arguments, options => do
    match arguments with
    | ('-' :: c :: r) :: ws =>
      if '-' = c ∧ r = [] then shell n tail name ws ('-' :: options)
      else shell n tail name ws (options ++ c :: r)
    | ws =>
      let kept := options.filter (· ∈ "aefnuvxC".toList)
      if 'c' ∈ options then
        match ws with
        | text :: given => newShell n tail (given.headD name) text (given.drop 1) kept
        | [] => do
          let _ ← write 2 (name ++ ": 0: -c requires an argument\n".toList)
          setStatus 2
      else
        match ws with
        | w :: given => do
          match (← get).machine.host.read (Path.ofBytes (toBytes w)) with
          | .ok b => newShell n tail w (ofBytes b) given kept
          | .error e => do
            let _ ← write 2 (name ++ ": 0: cannot open ".toList ++ w ++ ": ".toList
              ++ openReason false e ++ ['\n'])
            setStatus 2
        | [] => do
          let text ← drain
          newShell n tail name text [] kept

/-- Run commands in a shell of their own, which knows only the variables of the environment. -/
def newShell : Nat → Bool → Chars → Chars → List Chars → List Char → Act Unit
  | 0, _, _, _, _, _ => stop .unfinished
  | n + 1, tail, name, text, arguments, options => do
    let p ← get
    let replaces := tail && p.traps.isEmpty
    let killed? ← inChild
      (fun q =>
        let number := if replaces then p.number else q.number
        let caller := if replaces then p.caller else p.number
        { q with
          name := name
          number := number
          shell := number
          caller := caller
          arguments := arguments
          options := options
          functions := []
          frames := []
          speaker? := none
          isTested := false
          status := 0
          line := 1
          bindings := ("PPID".toList, { value? := some (toString caller).toList })
            :: ("OPTIND".toList, { value? := some ['1'] })
            :: p.environment.filter fun v => v.1 ∉ ["PPID".toList, "OPTIND".toList] })
      (conclude n (script n text))
    followChild tail killed?

end

end PollWatch.Shell
