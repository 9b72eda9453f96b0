import PollWatch.Shell.Utility.Basic
/-!
# Utilities on text

Showing, cutting, counting and sorting the lines of files.
-/

namespace PollWatch.Shell.Utility

/-- Show files one after another. -/
def cat (c : Call) : Ending :=
  let (os, ws) := options [] c.arguments
  let (found, e) := readAll c ws plainComplaint
  let all := found.flatMap (·.2)
  let shownLines := (linesOf all).zipIdx.flatMap fun (l, n) =>
    let number := shown ((n + 1 : Nat) : Int)
    List.replicate (6 - number.length) ' ' ++ number ++ ['\t'] ++ l ++ ['\n']
  e.add (if isGiven os 'n' then shownLines else all)

/-- The number in a count option: behind a letter, or as the letters themselves. -/
def countOption (os : List (Char × Chars)) : Bool × Nat × Bool :=
  let read (v : Chars) : Nat × Bool := match v with
    | '+' :: r => ((decimal? r).getD 0, true)
    | '-' :: r => ((decimal? r).getD 0, false)
    | r => ((decimal? r).getD 0, false)
  match os.find? (·.1 = 'c'), os.find? (·.1 = 'n') with
  | some (_, v), _ => (true, read v)
  | none, some (_, v) => (false, read v)
  | none, none =>
    match (os.filter (·.1.isDigit)).map (·.1) with
    | [] => (false, 10, false)
    | ds => (false, (decimal? ds).getD 10, false)

/-- The message about a count that is no number, if there is one. -/
def badCount? (os : List (Char × Chars)) : Option String :=
  (os.find? fun o => (o.1 = 'n' || o.1 = 'c') && (integer? o.2).isNone).map fun o =>
    "invalid number of " ++ (if o.1 = 'n' then "lines" else "bytes") ++ ": " ++ named o.2

/-- A title above each of several files. -/
def titled (found : List (Chars × Chars)) (part : Chars → Chars) : Chars :=
  match found with
  | [(_, cs)] => part cs
  | found =>
    (['\n']).intercalate (found.map fun (w, cs) =>
      let title := if w = ['-'] then "standard input".toList else w
      "==> ".toList ++ title ++ " <==\n".toList ++ part cs)

/-- The first lines or bytes. -/
def head (c : Call) : Ending :=
  let (os, ws) := options ['n', 'c'] c.arguments
  let (isBytes, n, _) := countOption os
  let (found, e) := match badCount? os with
    | some m => ([], c.quiet.fault c m)
    | none => readAll c ws openComplaint
  let part (cs : Chars) : Chars :=
    if isBytes then cs.take n
    else ((linesWithEnds cs).take n).flatten
  e.add (titled found part)

/-- The last lines or bytes, or all from a line or byte on. -/
def tail (c : Call) : Ending :=
  let (os, ws) := options ['n', 'c'] c.arguments
  let (isBytes, n, fromStart) := countOption os
  let (found, e) := match badCount? os with
    | some m => ([], c.quiet.fault c m)
    | none => readAll c ws openComplaint
  let part (cs : Chars) : Chars :=
    let lines := linesWithEnds cs
    if isBytes then cs.drop (if fromStart then n - 1 else cs.length - n)
    else (lines.drop (if fromStart then n - 1 else lines.length - n)).flatten
  e.add (titled found part)

/-- How many words are in a text. -/
def wordCount (cs : Chars) : Nat :=
  (cs.foldl (fun (n, inWord) c =>
    if c = ' ' || (9 ≤ c.toNat && c.toNat ≤ 13) then (n, false)
    else if inWord then (n, true) else (n + 1, true)) ((0, false) : Nat × Bool)).1

/-- Count lines, words and bytes. -/
def wc (c : Call) : Ending :=
  let (os, ws) := options [] c.arguments
  let (found, e) := readAll c ws plainComplaint
  let all : Bool := os.isEmpty
  let counts (cs : Chars) : List Nat :=
    (if all || isGiven os 'l' then [cs.count '\n'] else [])
      ++ (if all || isGiven os 'w' then [wordCount cs] else [])
      ++ (if isGiven os 'm' then [(Text.Utf8.lossy (toBytes cs)).length] else [])
      ++ (if all || isGiven os 'c' then [cs.length] else [])
  let columns := if all then 3 else os.length
  let total := found.foldl (fun (n : Nat) f => n + f.2.length) 0
  let width := if ws = [] then (if columns = 1 then 1 else 7)
    else if columns = 1 ∧ found.length = 1 then 1 else (shown total).length
  let row (ns : List Nat) (title : Chars) : Chars :=
    ([' ']).intercalate (ns.map fun (n : Nat) =>
      List.replicate (width - (shown n).length) ' ' ++ shown n)
      ++ (if title = [] then [] else ' ' :: title) ++ ['\n']
  let rows := found.flatMap fun (w, cs) => row (counts cs) (if ws = [] then [] else w)
  let sums := (found.map fun f => counts f.2).foldl
    (fun a b => if a = [] then b else List.zipWith (· + ·) a b) []
  e.add (rows ++ if 2 ≤ ws.length then row sums "total".toList else [])

/-- The characters of a set such as `a-z`. The number bounds its length. -/
def members : Nat → Chars → Chars
  | 0, _ => []
  | n + 1, cs =>
    match cs with
    | [] => []
    | '[' :: ':' :: r =>
      let name := r.takeWhile (· ≠ ':')
      match r.drop name.length with
      | ':' :: ']' :: s =>
        let all := (List.range 256).map Char.ofNat
        let is (c : Char) : Bool := match String.ofList name with
          | "alpha" => c.isAlpha
          | "digit" => c.isDigit
          | "alnum" => c.isAlphanum
          | "upper" => c.isUpper
          | "lower" => c.isLower
          | "space" => c = ' ' || (9 ≤ c.toNat && c.toNat ≤ 13)
          | "blank" => c = ' ' || c = '\t'
          | "punct" => 33 ≤ c.toNat && c.toNat ≤ 126 && !c.isAlphanum
          | _ => false
        all.filter is ++ members n s
      | _ => '[' :: members n (':' :: r)
    | '\\' :: c :: r =>
      (match c with
        | 'n' => '\n'
        | 't' => '\t'
        | 'r' => '\r'
        | '0' => '\x00'
        | c => c) :: members n r
    | a :: '-' :: b :: r =>
      ((List.range (b.toNat + 1 - a.toNat)).map fun k => Char.ofNat (a.toNat + k)) ++ members n r
    | c :: r => c :: members n r

/-- Leave out a character that repeats the one before it, for characters of a set. -/
def squeezed (set : Chars) : Chars → Chars
  | a :: b :: r => if a = b ∧ a ∈ set then squeezed set (b :: r) else a :: squeezed set (b :: r)
  | cs => cs

/-- Replace, delete or squeeze characters. -/
def tr (c : Call) : Ending :=
  let (os, ws) := options [] c.arguments
  let set (cs : Chars) : Chars := members (cs.length + 1) cs
  let all := (List.range 256).map Char.ofNat
  let first := set (ws.headD [])
  let from_ := if isGiven os 'c' || isGiven os 'C' then all.filter (· ∉ first) else first
  let e : Ending := { c.quiet with readsInput := true }
  match ws with
  | [] => c.quiet.misuse c "missing operand"
  | [_] =>
    if isGiven os 'd' then e.add (c.input.filter (· ∉ from_))
    else if isGiven os 's' then e.add (squeezed from_ c.input)
    else c.quiet.misuse c ("missing operand after " ++ named (ws.headD [])
      ++ "\nTwo strings must be given when translating.")
  | _ :: second :: _ =>
    let into := set second
    if isGiven os 'd' then e.add (squeezed into (c.input.filter (· ∉ from_)))
    else
      match into.getLast? with
      | none => c.quiet.misuse c "when not truncating set1, string2 must be non-empty"
      | some last =>
        let table := from_.zip (into ++ List.replicate (from_.length - into.length) last)
        let changed := c.input.map fun x => (table.reverse.lookup x).getD x
        e.add (if isGiven os 's' then squeezed into changed else changed)

/-- Whether a line stands before another in byte order. -/
def isBefore (a b : Chars) : Bool := Bytes.isBefore (toBytes a) (toBytes b)

/-- The number at the front of a line. -/
def leadingValue (cs : Chars) : Int :=
  let cs := cs.dropWhile (· = ' ')
  match cs with
  | '-' :: r => -((decimal? (r.takeWhile Char.isDigit)).getD 0 : Nat)
  | r => ((decimal? (r.takeWhile Char.isDigit)).getD 0 : Nat)

/-- Leave out a line that repeats the one before it. -/
def distinct (same : Chars → Chars → Bool) : List Chars → List Chars
  | a :: b :: r => if same a b then distinct same (a :: r) else a :: distinct same (b :: r)
  | ls => ls
termination_by ls => ls.length

/-- Sort lines. -/
def sort (c : Call) : Ending :=
  let (os, ws) := options ['k', 't', 'o'] c.arguments
  let (found, e) := readAll c ws fun w n => "cannot read: " ++ plainComplaint w n
  let numeric := isGiven os 'n'
  let before (a b : Chars) : Bool :=
    if numeric then
      leadingValue a < leadingValue b || (leadingValue a = leadingValue b && isBefore a b)
    else isBefore a b
  let ls := (found.flatMap fun f => linesOf f.2).mergeSort
    (if isGiven os 'r' then fun a b => before b a else before)
  let same (a b : Chars) : Bool := if numeric then leadingValue a = leadingValue b else a = b
  let e := if e.status = 0 then e else { e with status := 2 }
  e.add (unlines (if isGiven os 'u' then distinct same ls else ls))

/-- Runs of equal lines, each with its length. -/
def runs : List Chars → List (Chars × Nat)
  | [] => []
  | l :: ls =>
    match runs ls with
    | (m, n) :: r => if l = m then (m, n + 1) :: r else (l, 1) :: (m, n) :: r
    | [] => [(l, 1)]

/-- Leave out lines that repeat the one before them. -/
def uniq (c : Call) : Ending :=
  let (os, ws) := options [] c.arguments
  let (found, e) := readAll c (ws.take 1) plainComplaint
  let rs := runs (found.flatMap fun f => linesOf f.2)
  let rs := if isGiven os 'd' then rs.filter (2 ≤ ·.2) else rs
  let rs := if isGiven os 'u' then rs.filter (·.2 = 1) else rs
  e.add (rs.flatMap fun (l, n) =>
    (if isGiven os 'c' then List.replicate (7 - (shown n).length) ' ' ++ shown n ++ [' '] else [])
      ++ l ++ ['\n'])

/-- The numbers of a list such as `1,3-5`, up to a limit. -/
def positions (limit : Nat) (cs : Chars) : List Nat :=
  (cutAt ',' cs).flatMap fun part =>
    match cutAt '-' part with
    | [a] => (decimal? a).toList
    | [a, b] =>
      let first := (decimal? a).getD 1
      let last := (decimal? b).getD limit
      (List.range (min last limit + 1 - first)).map (first + ·)
    | _ => []

/-- Cut fields or characters out of lines. -/
def cut (c : Call) : Ending :=
  let (os, ws) := options ['d', 'f', 'c', 'b'] c.arguments
  let (found, e) := readAll c ws plainComplaint
  let d := ((os.lookup 'd').getD ['\t']).headD '\t'
  if !(isGiven os 'f' || isGiven os 'c' || isGiven os 'b') then
    c.quiet.misuse c "you must specify a list of bytes, characters, or fields"
  else
  let line (l : Chars) : List Chars :=
    match os.lookup 'f' with
    | some list =>
      if d ∉ l then (if isGiven os 's' then [] else [l])
      else
        let fs := cutAt d l
        let ps := positions fs.length list
        [([d]).intercalate ((fs.zipIdx.filter fun (_, n) => n + 1 ∈ ps).map (·.1))]
    | none =>
      let ps := positions l.length (((os.lookup 'c').orElse fun _ => os.lookup 'b').getD [])
      [(l.zipIdx.filter fun (_, n) => n + 1 ∈ ps).map (·.1)]
  e.add (unlines ((found.flatMap fun f => linesOf f.2).flatMap line))

/-- Show lines backwards. -/
def rev (c : Call) : Ending :=
  let (found, e) := readAll c c.arguments openComplaint
  e.add (unlines ((found.flatMap fun f => linesOf f.2).map List.reverse))

/-- Show the last line first. -/
def tac (c : Call) : Ending :=
  let (found, e) := readAll c c.arguments openComplaint
  e.add (unlines (found.flatMap fun f => linesOf f.2).reverse)

/-- The options in front of the numbers, and the numbers. -/
def seqOptions : List Chars → List (Char × Chars) × List Chars
  | ['-', 'w'] :: ws => (('w', []) :: (seqOptions ws).1, (seqOptions ws).2)
  | ['-', 's'] :: v :: ws => (('s', v) :: (seqOptions ws).1, (seqOptions ws).2)
  | ('-' :: 's' :: v) :: ws => (('s', v) :: (seqOptions ws).1, (seqOptions ws).2)
  | ws => ([], ws)

/-- A run of numbers, perhaps of one width or with a separator of its own. -/
def seq (c : Call) : Ending :=
  let (os, ws) := seqOptions c.arguments
  let written (ns : List Chars) : Chars :=
    let width := (ns.map List.length).foldl max 0
    let ns := if isGiven os 'w' then
        ns.map fun (cs : Chars) => List.replicate (width - cs.length) '0' ++ cs
      else ns
    if ns = [] then []
    else (((os.lookup 's').getD ['\n'])).intercalate ns ++ ['\n']
  let count (a s b : Int) : Ending :=
    if s = 0 then c.quiet.misuse c "invalid Zero increment value: '0'"
    else
      let n := if (b - a) * s < 0 then 0 else ((b - a) / s).toNat + 1
      c.prints (written ((List.range n).map fun (k : Nat) => shown (a + s * k)))
  match ws.mapM integer? with
  | some [b] => count 1 1 b
  | some [a, b] => count a 1 b
  | some [a, s, b] => count a s b
  | some [] => c.quiet.misuse c "missing operand"
  | _ =>
    let bad := (ws.find? fun w => (integer? w).isNone).getD []
    c.quiet.misuse c ("invalid floating point argument: " ++ named bad)

end PollWatch.Shell.Utility
