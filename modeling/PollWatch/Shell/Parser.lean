import PollWatch.Shell.Reader
/-!
# Reading shell commands

A reader stands somewhere in a command line and takes words and commands off its front. One line is
read at a time, together with the lines that a compound command or a here-document takes up, so
that commands before a faulty line are carried out.

The functions that read nested structure carry a number that bounds their depth; `Reader.depth`
gives one that the text cannot use up.
-/

namespace PollWatch.Shell

namespace Reading

mutual

/-- The rest of a word, behind the parts `ps`, the last first. -/
def wordFrom : Nat → List Part → Reading Word
  | 0, _ => refuse .tooDeep
  | n + 1, ps => do
    match ← left with
    | [] => return ps.reverse
    | '\\' :: '\n' :: r => do
      goOn r 1
      wordFrom n ps
    | '\\' :: c :: r => do
      goOn r
      wordFrom n (addQuoted c ps)
    | '\'' :: r => do
      let inside := r.takeWhile (· ≠ '\'')
      match r.drop inside.length with
      | [] => do
        goOn [] (lineEnds inside)
        refuse .openQuote
      | _ :: after => do
        goOn after (lineEnds inside)
        wordFrom n (.quoted inside :: ps)
    | '"' :: r => do
      goOn r
      let inside ← quotedFrom n true []
      wordFrom n (inside.reverse ++ (.quoted [] :: ps))
    | '$' :: r => do
      goOn r
      let p ← dollar n false
      wordFrom n (p :: ps)
    | '\x60' :: r => do
      goOn r
      let p ← backquote n false
      wordFrom n (p :: ps)
    | c :: r =>
      if isBreak c then return ps.reverse
      else do
        goOn r
        wordFrom n (addPlain c ps)

/-- The rest of a text in double quotes; without `closes`, the rest of a here-document, which ends
with the text and where double quotes stand for themselves. -/
def quotedFrom : Nat → Bool → List Part → Reading Word
  | 0, _, _ => refuse .tooDeep
  | n + 1, closes, ps => do
    match ← left with
    | [] => if closes then refuse .openQuote else return ps.reverse
    | '\\' :: '\n' :: r => do
      goOn r 1
      quotedFrom n closes ps
    | '\\' :: c :: r => do
      goOn r
      if c = '$' ∨ c = '\x60' ∨ c = '\\' ∨ (closes ∧ c = '"') then
        quotedFrom n closes (addQuoted c ps)
      else quotedFrom n closes (addQuoted c (addQuoted '\\' ps))
    | '"' :: r => do
      goOn r
      if closes then return ps.reverse else quotedFrom n closes (addQuoted '"' ps)
    | '$' :: r => do
      goOn r
      let p ← dollar n true
      quotedFrom n closes (p :: ps)
    | '\x60' :: r => do
      goOn r
      let p ← backquote n true
      quotedFrom n closes (p :: ps)
    | c :: r => do
      goOn r (if c = '\n' then 1 else 0)
      quotedFrom n closes (addQuoted c ps)

/-- The expansion behind a dollar sign. -/
def dollar : Nat → Bool → Reading Part
  | 0, _ => refuse .tooDeep
  | n + 1, q => do
    match ← left with
    | '(' :: '(' :: r => do
      goOn r
      let e ← arithmeticFrom n 0 []
      return .arithmetic e q
    | '(' :: r => do
      goOn r
      let c ← commands n true
      takeOperator ")"
      return .command c q
    | '\x7b' :: r => do
      goOn r
      braced n q
    | c :: r =>
      if beginsName c then do
        let name := (c :: r).takeWhile inName
        goOn ((c :: r).drop name.length)
        return .parameter name .none q
      else if c.isDigit ∨ c ∈ "@*#?-$!".toList then do
        goOn r
        return .parameter [c] .none q
      else return if q then .quoted ['$'] else .plain ['$']
    | [] => return if q then .quoted ['$'] else .plain ['$']

/-- The commands between backquotes. -/
def backquote : Nat → Bool → Reading Part
  | 0, _ => refuse .tooDeep
  | n + 1, q => do
    match backquoted q (← left) with
    | none => refuse .openBackquote
    | some (inside, after) => do
      goOn inside
      let c ← commands n true
      skip
      match ← left with
      | [] => do
        goOn after
        return .command c q
      | _ => refuseNext none

/-- The expansion behind an opening brace. -/
def braced : Nat → Bool → Reading Part
  | 0, _ => refuse .tooDeep
  | n + 1, q => do
    let cs ← left
    let (isLength, cs) := match cs with
      | '#' :: '\x7d' :: _ => (false, cs)
      | '#' :: c :: _ =>
        if inName c ∨ c ∈ "@*#?-$!".toList then (true, cs.drop 1) else (false, cs)
      | _ => (false, cs)
    let name := match cs with
      | c :: r =>
        if beginsName c then (c :: r).takeWhile inName
        else if c.isDigit then (c :: r).takeWhile Char.isDigit
        else if c ∈ "@*#?-$!".toList then [c]
        else []
      | [] => []
    goOn (cs.drop name.length)
    if isLength then
      match ← left with
      | '\x7d' :: r => do
        goOn r
        return .parameter name .length q
      | _ => do
        let _ ← braceWord n q []
        return .parameter name .bad q
    else if name = [] then do
      let _ ← braceWord n q []
      return .parameter name .bad q
    else
      let (colon, after) := match ← left with
        | ':' :: r => (true, r)
        | r => (false, r)
      let fallback (f : Fallback) (r : Chars) : Reading Part := do
        goOn r
        let w ← braceWord n q []
        return .parameter name (.fallback f colon w) q
      let strip (atEnd longest : Bool) (r : Chars) : Reading Part := do
        goOn r
        let w ← braceWord n false []
        return .parameter name (.strip atEnd longest w) q
      match colon, after with
      | false, '\x7d' :: r => do
        goOn r
        return .parameter name .none q
      | _, '-' :: r => fallback .default r
      | _, '=' :: r => fallback .assign r
      | _, '?' :: r => fallback .fail r
      | _, '+' :: r => fallback .alternative r
      | false, '%' :: '%' :: r => strip true true r
      | false, '%' :: r => strip true false r
      | false, '#' :: '#' :: r => strip false true r
      | false, '#' :: r => strip false false r
      | _, _ => do
        let _ ← braceWord n q []
        return .parameter name .bad q

/-- The rest of a word up to the closing brace. -/
def braceWord : Nat → Bool → List Part → Reading Word
  | 0, _, _ => refuse .tooDeep
  | n + 1, q, ps => do
    match ← left with
    | [] => refuse .openBrace
    | '\x7d' :: r => do
      goOn r
      return ps.reverse
    | '\\' :: c :: r => do
      goOn r
      braceWord n q (addQuoted c ps)
    | '\'' :: r =>
      if q then do
        goOn r
        braceWord n q (addQuoted '\'' ps)
      else do
        let inside := r.takeWhile (· ≠ '\'')
        match r.drop inside.length with
        | [] => refuse .openQuote
        | _ :: after => do
          goOn after (lineEnds inside)
          braceWord n q (.quoted inside :: ps)
    | '"' :: r => do
      goOn r
      let inside ← quotedFrom n true []
      braceWord n q (inside.reverse ++ (.quoted [] :: ps))
    | '$' :: r => do
      goOn r
      let p ← dollar n q
      braceWord n q (p :: ps)
    | '\x60' :: r => do
      goOn r
      let p ← backquote n q
      braceWord n q (p :: ps)
    | c :: r => do
      goOn r (if c = '\n' then 1 else 0)
      braceWord n q (if q then addQuoted c ps else addPlain c ps)

/-- The rest of an arithmetic expression, inside `open'` parentheses of its own. -/
def arithmeticFrom : Nat → Nat → List Part → Reading Word
  | 0, _, _ => refuse .tooDeep
  | n + 1, inner, ps => do
    match ← left with
    | [] => refuse .openArithmetic
    | ')' :: r =>
      match inner, r with
      | inner + 1, r => do
        goOn r
        arithmeticFrom n inner (addQuoted ')' ps)
      | 0, ')' :: r => do
        goOn r
        return ps.reverse
      | 0, _ => refuse .openArithmetic
    | '(' :: r => do
      goOn r
      arithmeticFrom n (inner + 1) (addQuoted '(' ps)
    | '$' :: r => do
      goOn r
      let p ← dollar n true
      arithmeticFrom n inner (p :: ps)
    | '\x60' :: r => do
      goOn r
      let p ← backquote n true
      arithmeticFrom n inner (p :: ps)
    | '"' :: r => do
      goOn r
      arithmeticFrom n inner ps
    | c :: r => do
      goOn r (if c = '\n' then 1 else 0)
      arithmeticFrom n inner (addQuoted c ps)

/-- Take the end of a line and read the here-documents that were awaited. -/
def lineEnd : Nat → Reading Unit
  | 0 => refuse .tooDeep
  | n + 1 => do
    goOn ((← left).drop 1) 1
    let waiting := (← get).awaited
    modify fun r => { r with awaited := [] }
    documents n waiting

/-- Read here-documents. -/
def documents : Nat → List Awaited → Reading Unit
  | _, [] => return ()
  | 0, _ => refuse .tooDeep
  | n + 1, a :: as => do
    let cs ← left
    let (body, after) := documentLines a (cs.length + 1) [] cs
    let taken := cs.length - after.length
    let word ←
      if a.isQuoted then pure [.quoted body]
      else do
        goOn body
        let start := (← get).line
        let w ← quotedFrom n false []
        modify fun r => { r with line := start }
        pure w
    goOn after (lineEnds (cs.take taken))
    modify fun r => { r with documents := r.documents ++ [(a.number, word)] }
    documents n as

/-- Skip blanks and ends of lines. -/
def skipLines : Nat → Reading Unit
  | 0 => refuse .tooDeep
  | n + 1 => do
    skip
    match ← left with
    | '\n' :: _ => do
      lineEnd n
      skipLines n
    | _ => return ()

/-- Commands up to a word or operator that ends them. Unless `mayEnd`, there is at least one. -/
def commands : Nat → Bool → Reading Command
  | 0, _ => refuse .tooDeep
  | n + 1, mayEnd => do
    skipLines n
    if (← left) = [] then return .nothing
    let k ← keyword?
    let o ← operator?
    let ends := k.any (· ∈ ["do", "done", "elif", "else", "esac", "fi", "then", "\x7d"])
      || o.any (· ∈ [")", ";;"])
    if ends then
      if mayEnd then return .nothing else refuseNext none
    else do
      let c ← chain n
      skip
      match ← left with
      | '\n' :: _ => do
        let r ← commands n true
        return .sequence c r
      | _ =>
        match ← operator? with
        | some ";" => do
          goOn ((← left).drop 1)
          let r ← commands n true
          return .sequence c r
        | some "&" => do
          goOn ((← left).drop 1)
          let r ← commands n true
          return .sequence (.background c) r
        | _ => return c

/-- Pipelines joined by `&&` and `||`. -/
def chain : Nat → Reading Command
  | 0 => refuse .tooDeep
  | n + 1 => do
    let c ← pipeline n
    chainFrom n c

/-- What follows a pipeline, joined by `&&` and `||`. -/
def chainFrom : Nat → Command → Reading Command
  | 0, _ => refuse .tooDeep
  | n + 1, c => do
    skip
    match ← operator? with
    | some "&&" => do
      goOn ((← left).drop 2)
      skipLines n
      let d ← pipeline n
      chainFrom n (.both c d)
    | some "||" => do
      goOn ((← left).drop 2)
      skipLines n
      let d ← pipeline n
      chainFrom n (.either c d)
    | _ => return c

/-- Commands joined by `|`, perhaps negated. -/
def pipeline : Nat → Reading Command
  | 0 => refuse .tooDeep
  | n + 1 => do
    skip
    if (← keyword?) = some "!" then do
      goOn ((← left).drop 1)
      let c ← pipeline n
      return .negated c
    else do
      let c ← command n
      pipelineFrom n [c]

/-- What follows the commands `cs`, the last first, joined by `|`. -/
def pipelineFrom : Nat → List Command → Reading Command
  | 0, _ => refuse .tooDeep
  | n + 1, cs => do
    skip
    match ← operator? with
    | some "|" => do
      goOn ((← left).drop 1)
      skipLines n
      let c ← command n
      pipelineFrom n (c :: cs)
    | _ =>
      match cs with
      | [c] => return c
      | cs => return .pipeline cs.reverse

/-- A command with its redirections. -/
def command : Nat → Reading Command
  | 0 => refuse .tooDeep
  | n + 1 => do
    skip
    let k ← keyword?
    let takeIt (k : String) : Reading Unit := do
      goOn ((← left).drop k.length)
    match k with
    | some "if" => do
      takeIt "if"
      let c ← ifFrom n
      redirectsFrom n c []
    | some "while" => do
      takeIt "while"
      let c ← commands n false
      takeKeyword "do"
      let b ← commands n false
      takeKeyword "done"
      redirectsFrom n (.loop false c b) []
    | some "until" => do
      takeIt "until"
      let c ← commands n false
      takeKeyword "do"
      let b ← commands n false
      takeKeyword "done"
      redirectsFrom n (.loop true c b) []
    | some "for" => do
      takeIt "for"
      let c ← forFrom n
      redirectsFrom n c []
    | some "case" => do
      takeIt "case"
      skip
      let w ← aWord n
      skipLines n
      takeKeyword "in"
      let bs ← branches n []
      redirectsFrom n (.select w bs) []
    | some "\x7b" => do
      takeIt "\x7b"
      let c ← commands n false
      takeKeyword "\x7d"
      redirectsFrom n c []
    | some _ => refuseNext none
    | none =>
      match ← operator? with
      | some "(" => do
        goOn ((← left).drop 1)
        let c ← commands n false
        takeOperator ")"
        redirectsFrom n (.subshell c) []
      | some _ => refuseNext none
      | none => do
        match ← left with
        | [] => refuseNext none
        | '\n' :: _ => refuseNext none
        | _ => do
          let line := (← get).line
          simpleFrom n line [] [] []

/-- A word that has to stand next. -/
def aWord : Nat → Reading Word
  | 0 => refuse .tooDeep
  | n + 1 => do
    match ← left with
    | [] => refuseNext none
    | c :: _ => if isBreak c then refuseNext none else wordFrom n []

/-- The rest of a conditional, behind `if` or `elif`. -/
def ifFrom : Nat → Reading Command
  | 0 => refuse .tooDeep
  | n + 1 => do
    let c ← commands n false
    takeKeyword "then"
    let y ← commands n false
    skip
    match ← keyword? with
    | some "elif" => do
      goOn ((← left).drop 4)
      let e ← ifFrom n
      return .branch c y e
    | some "else" => do
      goOn ((← left).drop 4)
      let e ← commands n false
      takeKeyword "fi"
      return .branch c y e
    | _ => do
      takeKeyword "fi"
      return .branch c y .nothing

/-- The rest of a loop over words, behind `for`. -/
def forFrom : Nat → Reading Command
  | 0 => refuse .tooDeep
  | n + 1 => do
    skip
    let name ← match ← left with
      | [] => refuse .loopVariable
      | c :: _ => if isBreak c then refuse .loopVariable else wordFrom n []
    match plainWord? name with
    | none => refuse .loopVariable
    | some name =>
      if !isName name then refuse .loopVariable
      else do
        skipLines n
        let words ←
          if (← keyword?) = some "in" then do
            goOn ((← left).drop 2)
            let ws ← wordsFrom n []
            match ← left with
            | '\n' :: _ => pure ()
            | _ => if (← operator?) ≠ some ";" then refuseNext none
            pure (some ws)
          else pure none
        skip
        if (← operator?) = some ";" then goOn ((← left).drop 1)
        skipLines n
        takeKeyword "do"
        let b ← commands n false
        takeKeyword "done"
        return .forEach name words b

/-- Words up to an operator or the end of the line, behind the words `ws`, the last first. -/
def wordsFrom : Nat → List Word → Reading (List Word)
  | 0, _ => refuse .tooDeep
  | n + 1, ws => do
    skip
    match ← left with
    | [] => return ws.reverse
    | c :: _ =>
      if isBreak c then return ws.reverse
      else do
        let w ← wordFrom n []
        wordsFrom n (w :: ws)

/-- The branches of a choice, behind the branches `bs`, the last first. -/
def branches : Nat → List (List Word × Command) → Reading (List (List Word × Command))
  | 0, _ => refuse .tooDeep
  | n + 1, bs => do
    skipLines n
    if (← keyword?) = some "esac" then do
      goOn ((← left).drop 4)
      return bs.reverse
    else do
      if (← operator?) = some "(" then goOn ((← left).drop 1)
      if (← left) = [] then refuseNext (some ")")
      let ps ← patterns n []
      takeOperator ")"
      let c ← commands n true
      skip
      match ← operator? with
      | some ";;" => do
        goOn ((← left).drop 2)
        branches n ((ps, c) :: bs)
      | _ => do
        if (← keyword?) = some "esac" then do
          goOn ((← left).drop 4)
          return ((ps, c) :: bs).reverse
        else refuseNext (some ";;")

/-- Patterns joined by `|`, behind the patterns `ps`, the last first. -/
def patterns : Nat → List Word → Reading (List Word)
  | 0, _ => refuse .tooDeep
  | n + 1, ps => do
    skip
    let w ← aWord n
    skip
    match ← operator? with
    | some "|" => do
      goOn ((← left).drop 1)
      patterns n (w :: ps)
    | _ => return (w :: ps).reverse

/-- A redirection, if one stands next. -/
def redirect? : Nat → Reading (Option Redirect)
  | 0 => refuse .tooDeep
  | n + 1 => do
    match redirectOperator? (← left) with
    | none => return none
    | some (fd?, o, after) => do
      goOn after
      skip
      let w ← aWord n
      let file (fd : Nat) (k : RedirectKind) : Option Redirect :=
        some (.file (fd?.getD fd) k w)
      match o with
      | "<" => return file 0 .input
      | ">" => return file 1 .output
      | ">|" => return file 1 .output
      | ">>" => return file 1 .append
      | "<>" => return file 0 .readWrite
      | "<&" => return file 0 .duplicate
      | ">&" => return file 1 .duplicate
      | o => do
        let r ← get
        let (delimiter, isQuoted) := delimiterOf w
        let a : Awaited := ⟨r.next, delimiter, isQuoted, o = "<<-"⟩
        set { r with next := r.next + 1, awaited := r.awaited ++ [a] }
        return some (.document (fd?.getD 0) a.number)

/-- The redirections of a compound command, behind `rs`, the last first. -/
def redirectsFrom : Nat → Command → List Redirect → Reading Command
  | 0, _, _ => refuse .tooDeep
  | n + 1, c, rs => do
    skip
    match ← redirect? n with
    | some r => redirectsFrom n c (r :: rs)
    | none => if rs = [] then return c else return .redirected c rs.reverse

/-- The rest of a simple command, behind what has been read of it, the last first. -/
def simpleFrom : Nat → Nat → List (Chars × Word) → List Word → List Redirect → Reading Command
  | 0, _, _, _, _ => refuse .tooDeep
  | n + 1, line, as, ws, rs => do
    skip
    match ← redirect? n with
    | some r => simpleFrom n line as ws (r :: rs)
    | none =>
      match ← left with
      | [] => return .simple line as.reverse ws.reverse rs.reverse
      | c :: r =>
        if c = '(' then
          match ws, as, rs with
          | [w], [], [] => do
            goOn r
            takeOperator ")"
            match plainWord? w with
            | some name =>
              if isName name then do
                skipLines n
                let b ← command n
                return .define name b
              else refuse .functionName
            | none => refuse .functionName
          | _, _, _ => refuseNext none
        else if isBreak c then return .simple line as.reverse ws.reverse rs.reverse
        else do
          let w ← wordFrom n []
          match ws, assignment? w with
          | [], some a => simpleFrom n line (a :: as) ws rs
          | _, _ => simpleFrom n line as (w :: ws) rs

end

/-- The rest of a line of commands. -/
def lineFrom : Nat → Reading Command
  | 0 => refuse .tooDeep
  | n + 1 => do
    skip
    match ← left with
    | [] => return .nothing
    | '\n' :: _ => do
      lineEnd n
      return .nothing
    | _ => do
      let c ← chain n
      skip
      match ← left with
      | [] => return c
      | '\n' :: _ => do
        lineEnd n
        return c
      | _ =>
        match ← operator? with
        | some ";" => do
          goOn ((← left).drop 1)
          let r ← lineFrom n
          return .sequence c r
        | some "&" => do
          goOn ((← left).drop 1)
          let r ← lineFrom n
          return .sequence (.background c) r
        | _ => refuseNext none

end Reading

namespace Reader

/-- A reader at the beginning of a text. -/
def start (cs : Chars) : Reader := { rest := cs }

/-- A depth that reading the text does not use up. -/
def depth (r : Reader) : Nat := 16 * r.rest.length + 64

/-- The commands of the next line, and the reader behind it; none at the end. -/
def line? (r : Reader) : Except (SyntaxFault × Nat) (Option (Command × Reader)) :=
  if r.rest = [] then .ok none
  else (Reading.lineFrom r.depth |>.run r).map some

end Reader

end PollWatch.Shell
