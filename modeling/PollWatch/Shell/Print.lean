import PollWatch.Shell.Syntax
/-!
# Printing commands

The two commands that print their arguments: one prints them with escapes replaced, the other
fills them into a format, again and again until none are left.
-/

namespace PollWatch.Shell.Print

/-- What became of a text with escapes, and whether an escape ended all output. -/
structure Escaped where
  chars : Chars
  isLast : Bool := false

/-- The value of an octal digit. -/
def octal? (c : Char) : Option Nat :=
  if '0' ≤ c ∧ c ≤ '7' then some (c.toNat - '0'.toNat) else none

/-- The number of up to `count` octal digits, and how many there are. -/
def octalPrefix : Nat → Chars → Nat × Nat → Nat × Nat
  | 0, _, r => r
  | _ + 1, [], r => r
  | count + 1, c :: cs, r =>
    match octal? c with
    | some d => octalPrefix count cs (r.1 * 8 + d, r.2 + 1)
    | none => r

/-- The character of a one-letter escape. -/
def letter? : Char → Option Char
  | '\\' => some '\\'
  | 'a' => some '\x07'
  | 'b' => some '\x08'
  | 'f' => some '\x0c'
  | 'n' => some '\n'
  | 'r' => some '\r'
  | 't' => some '\t'
  | 'v' => some '\x0b'
  | _ => none

/-- Replace the escapes of a text. The number bounds its length. -/
def unescapeFrom : Nat → Chars → Escaped
  | 0, cs => ⟨cs, false⟩
  | n + 1, cs =>
    let more (c : Char) (r : Chars) : Escaped :=
      let e := unescapeFrom n r
      ⟨c :: e.chars, e.isLast⟩
    match cs with
    | '\\' :: 'c' :: _ => ⟨[], true⟩
    | '\\' :: '0' :: r =>
      let (v, k) := octalPrefix 3 r (0, 0)
      more (Char.ofNat (v % 256)) (r.drop k)
    | '\\' :: c :: r =>
      match letter? c, octal? c with
      | some d, _ => more d r
      | none, some _ =>
        let (v, k) := octalPrefix 3 (c :: r) (0, 0)
        more (Char.ofNat (v % 256)) ((c :: r).drop k)
      | none, none => more '\\' (c :: r)
    | c :: r => more c r
    | [] => ⟨[], false⟩

/-- Replace the escapes of a text. -/
def unescape (cs : Chars) : Escaped := unescapeFrom (cs.length + 1) cs

/-- What printing the arguments gives: a space between them and a line end, which `-n` leaves
out. -/
def echo (arguments : List Chars) : Chars :=
  let (endsLine, words) := match arguments with
    | ['-', 'n'] :: r => (false, r)
    | r => (true, r)
  let e := unescape ((" ".toList).intercalate words)
  if endsLine && !e.isLast then e.chars ++ ['\n'] else e.chars

/-- How an argument is filled into a format. -/
structure Directive where
  flags : Chars := []
  width : Nat := 0
  precision? : Option Nat := none
  conversion : Char

/-- An element of a format. -/
inductive Piece where
  | text (c : Char)
  /-- A directive; the flags say whether width and precision are arguments. -/
  | directive (d : Directive) (widthGiven precisionGiven : Bool)
  | bad (cs : Chars)

/-- The number that digits make. -/
def number (cs : Chars) : Nat := cs.foldl (fun n c => n * 10 + (c.toNat - '0'.toNat)) 0

/-- The elements of a format. The number bounds its length. -/
def pieces : Nat → Chars → List Piece
  | 0, _ => []
  | n + 1, cs =>
    match cs with
    | [] => []
    | '%' :: '%' :: r => .text '%' :: pieces n r
    | '%' :: r =>
      let flags := r.takeWhile (· ∈ "#-+ 0".toList)
      let r1 := r.drop flags.length
      let (width, givenWidth, r2) := match r1 with
        | '*' :: s => (0, true, s)
        | s => (number (s.takeWhile Char.isDigit), false, s.dropWhile Char.isDigit)
      let (precision?, givenPrecision, r3) := match r2 with
        | '.' :: '*' :: s => (some 0, true, s)
        | '.' :: s => (some (number (s.takeWhile Char.isDigit)), false, s.dropWhile Char.isDigit)
        | s => (none, false, s)
      match r3 with
      | [] => [.bad ['%']]
      | c :: s =>
        if c ∈ "bcdiouxXs".toList then
          .directive ⟨flags, width, precision?, c⟩ givenWidth givenPrecision :: pieces n s
        else [.bad ('%' :: (r.take (r.length - s.length)))]
    | c :: r => .text c :: pieces n r

/-- Why an argument is no number. -/
inductive NumberFault where
  | none
  | notNumeric
  | partlyNumeric

/-- The digits of a number in a base. -/
def digits (base n : Nat) (upper : Bool) : Chars :=
  (Nat.toDigits base n).map fun c => if upper then c.toUpper else c

/-- The number that digits at the front of a text make in a base, and what follows them. -/
def leadingNumber (base : Nat) (cs : Chars) : Option (Nat × Chars) :=
  let value (c : Char) : Option Nat :=
    let v :=
      if c.isDigit then some (c.toNat - '0'.toNat)
      else if 'a' ≤ c ∧ c ≤ 'f' then some (c.toNat - 'a'.toNat + 10)
      else if 'A' ≤ c ∧ c ≤ 'F' then some (c.toNat - 'A'.toNat + 10)
      else none
    v.filter (· < base)
  let ds := cs.takeWhile fun c => (value c).isSome
  if ds = [] then none
  else some (ds.foldl (fun n c => n * base + (value c).getD 0) 0, cs.drop ds.length)

/-- The number that an argument denotes: signed, in one of three bases, or the code of a character
behind a quote. -/
def argumentNumber (cs : Chars) : Int × NumberFault :=
  match cs with
  | '"' :: c :: _ => (c.toNat, .none)
  | '\'' :: c :: _ => (c.toNat, .none)
  | [] => (0, .none)
  | cs =>
    let cs := cs.dropWhile fun c => c = ' ' || c = '\t' || c = '\n'
    let (sign, r) : Int × Chars := match cs with
      | '-' :: r => (-1, r)
      | '+' :: r => (1, r)
      | r => (1, r)
    let read := match r with
      | '0' :: x :: s =>
        if x = 'x' ∨ x = 'X' then leadingNumber 16 s else leadingNumber 8 ('0' :: x :: s)
      | r => leadingNumber 10 r
    match read with
    | none => (0, .notNumeric)
    | some (n, []) => (sign * n, .none)
    | some (n, _) => (sign * n, .partlyNumeric)

/-- A text in a field of some width. -/
def padded (d : Directive) (sign body : Chars) (mayZero : Bool) : Chars :=
  let missing := d.width - (sign.length + body.length)
  if '-' ∈ d.flags then sign ++ body ++ List.replicate missing ' '
  else if mayZero && '0' ∈ d.flags && d.precision?.isNone then
    sign ++ List.replicate missing '0' ++ body
  else List.replicate missing ' ' ++ sign ++ body

/-- A number filled into a directive. -/
def filledNumber (d : Directive) (v : Int) : Chars :=
  let unsigned := (v % 18446744073709551616).toNat
  let (sign, body) : Chars × Chars :=
    match d.conversion with
    | 'o' => ([], (if '#' ∈ d.flags then ['0'] else []) ++ digits 8 unsigned false)
    | 'u' => ([], digits 10 unsigned false)
    | 'x' => (if '#' ∈ d.flags ∧ unsigned ≠ 0 then ['0', 'x'] else [], digits 16 unsigned false)
    | 'X' => (if '#' ∈ d.flags ∧ unsigned ≠ 0 then ['0', 'X'] else [], digits 16 unsigned true)
    | _ =>
      (if v < 0 then ['-']
        else if '+' ∈ d.flags then ['+']
        else if ' ' ∈ d.flags then [' ']
        else [],
        digits 10 v.natAbs false)
  let body := match d.precision? with
    | some 0 => if v = 0 then [] else body
    | some p => List.replicate (p - body.length) '0' ++ body
    | none => body
  padded d sign body true

/-- The state of filling a format. -/
structure Filling where
  output : Chars := []
  arguments : List Chars
  /-- Messages about arguments that are no numbers. -/
  faults : List Chars := []
  isOver : Bool := false
  /-- A directive that has no meaning. -/
  bad? : Option Chars := none

namespace Filling

/-- Take a number from the arguments. -/
def takeNumber (f : Filling) : Int × Filling :=
  match f.arguments with
  | [] => (0, f)
  | a :: as =>
    let (v, fault) := argumentNumber a
    let faults := match fault with
      | .none => f.faults
      | .notNumeric => f.faults ++ [a ++ ": expected numeric value".toList]
      | .partlyNumeric => f.faults ++ [a ++ ": not completely converted".toList]
    (v, { f with arguments := as, faults := faults })

/-- Add to the output. -/
def add (f : Filling) (cs : Chars) : Filling := { f with output := f.output ++ cs }

/-- Fill one argument into a directive. -/
def fill (f : Filling) (d : Directive) : Filling :=
  let taken := { f with arguments := f.arguments.drop 1 }
  let argument := f.arguments.headD []
  match d.conversion with
  | 's' =>
    let body := match d.precision? with
      | some p => argument.take p
      | none => argument
    taken.add (padded d [] body false)
  | 'b' =>
    let e := unescape argument
    let body := match d.precision? with
      | some p => e.chars.take p
      | none => e.chars
    { taken.add (padded d [] body false) with isOver := e.isLast }
  | 'c' => taken.add (padded d [] (argument.take 1) false)
  | _ =>
    let (v, g) := f.takeNumber
    g.add (filledNumber d v)

/-- Fill the pieces of a format, once. -/
def fillAll (f : Filling) : List Piece → Filling
  | [] => f
  | p :: ps =>
    if f.isOver then f
    else
      match p with
      | .text c => (f.add [c]).fillAll ps
      | .bad cs => { f with bad? := some cs, isOver := true }
      | .directive d widthGiven precisionGiven =>
        let (w, f) := if widthGiven then f.takeNumber else (d.width, f)
        let (p, f) := if precisionGiven then f.takeNumber else (0, f)
        let flags := if w < 0 then '-' :: d.flags else d.flags
        let precision? :=
          if precisionGiven then (if p < 0 then none else some p.toNat) else d.precision?
        (f.fill { d with flags := flags, width := w.natAbs, precision? := precision? }).fillAll ps

/-- Fill a format until no arguments are left, or it takes none. -/
def repeated (ps : List Piece) : Nat → Filling → Filling
  | 0, f => f
  | n + 1, f =>
    let g := f.fillAll ps
    if g.isOver || g.arguments.isEmpty || g.arguments.length = f.arguments.length then g
    else repeated ps n g

end Filling

/-- Fill arguments into a format. -/
def format (cs : Chars) (arguments : List Chars) : Filling :=
  let e := unescape cs
  let ps := pieces (e.chars.length + 1) e.chars
  Filling.repeated ps (arguments.length + 1) { arguments := arguments }

end PollWatch.Shell.Print
