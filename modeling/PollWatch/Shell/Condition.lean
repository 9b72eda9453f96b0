import PollWatch.Host.Lookup
import PollWatch.Shell.Syntax
/-!
# Conditions

The expressions of the command that tests files, texts and numbers.
-/

namespace PollWatch.Shell.Condition

/-- Why a condition has no value. -/
inductive Fault where
  | illegalNumber (cs : Chars)
  | unexpectedOperator (cs : Chars)
  | argumentExpected (cs : Chars)
  | closingExpected
  | missingBracket

/-- The text of a fault. -/
def Fault.message : Fault → Chars
  | .illegalNumber cs => "Illegal number: ".toList ++ cs
  | .unexpectedOperator cs => cs ++ ": unexpected operator".toList
  | .argumentExpected cs => cs ++ ": argument expected".toList
  | .closingExpected => "closing paren expected".toList
  | .missingBracket => "missing ]".toList

/-- The operators on one operand. -/
def unary : List String :=
  ["-r", "-w", "-x", "-e", "-f", "-d", "-c", "-b", "-p", "-u", "-g", "-k", "-s", "-t", "-z", "-n",
    "-h", "-L", "-O", "-G", "-S"]

/-- The operators on two operands. -/
def binary : List String :=
  ["=", "!=", "<", ">", "-eq", "-ne", "-ge", "-gt", "-le", "-lt", "-nt", "-ot", "-ef"]

/-- Whether a word is one of some operators. -/
def isOneOf (l : List String) (cs : Chars) : Bool := l.any (·.toList = cs)

/-- The number that a word denotes. -/
def number (cs : Chars) : Except Fault Int :=
  let isBlank (c : Char) : Bool := c = ' ' || (9 ≤ c.toNat && c.toNat ≤ 13)
  let body := ((cs.dropWhile isBlank).reverse.dropWhile isBlank).reverse
  let (sign, ds) : Int × Chars := match body with
    | '-' :: r => (-1, r)
    | '+' :: r => (1, r)
    | r => (1, r)
  if ds ≠ [] ∧ ds.all Char.isDigit then
    .ok (sign * (ds.foldl (fun n c => n * 10 + (c.toNat - '0'.toNat)) 0 : Nat))
  else .error (.illegalNumber cs)

/-- What stands at a path, with links followed or not. -/
def node? (h : Host) (follow : Bool) (cs : Chars) : Option (Place × Node) :=
  (h.find follow (.ofBytes (toBytes cs))).toOption

/-- The time of what stands at a path. -/
def time? (h : Host) (cs : Chars) : Option Instant :=
  match node? h true cs with
  | some (_, .file _ t _) => some t
  | some (_, .directory t) => some t
  | some _ => some 0
  | none => none

/-- The value of an operator on one operand. -/
def applyUnary (h : Host) (o : String) (cs : Chars) : Bool :=
  match o, node? h true cs with
  | "-z", _ => cs.isEmpty
  | "-n", _ => !cs.isEmpty
  | "-t", _ => false
  | "-h", _ => match node? h false cs with
    | some (_, .link _) => true
    | _ => false
  | "-L", _ => match node? h false cs with
    | some (_, .link _) => true
    | _ => false
  | "-f", some (_, .file _ _ _) => true
  | "-d", some (_, .directory _) => true
  | "-c", some (_, .device _) => true
  | "-s", some (_, .file content _ _) => !content.isEmpty
  | "-s", some (_, .directory _) => true
  | "-x", some (_, .file _ _ x) => x
  | "-x", some (_, .directory _) => true
  | "-e", some _ => true
  | "-r", some _ => true
  | "-w", some _ => true
  | "-O", some _ => true
  | "-G", some _ => true
  | _, _ => false

/-- The value of an operator on two operands. -/
def applyBinary (h : Host) (o : String) (a b : Chars) : Except Fault Bool := do
  let numbers (f : Int → Int → Bool) : Except Fault Bool := do
    let x ← number a
    let y ← number b
    return f x y
  match o with
  | "=" => return a = b
  | "!=" => return a ≠ b
  | "<" => return Bytes.isBefore (toBytes a) (toBytes b) && a ≠ b
  | ">" => return Bytes.isBefore (toBytes b) (toBytes a) && a ≠ b
  | "-eq" => numbers fun x y => x = y
  | "-ne" => numbers fun x y => x ≠ y
  | "-ge" => numbers fun x y => y ≤ x
  | "-gt" => numbers fun x y => y < x
  | "-le" => numbers fun x y => x ≤ y
  | "-lt" => numbers fun x y => x < y
  | "-nt" => match time? h a, time? h b with
    | some s, some t => return t < s
    | _, _ => return false
  | "-ot" => match time? h a, time? h b with
    | some s, some t => return s < t
    | _, _ => return false
  | _ => match node? h true a, node? h true b with
    | some s, some t => return s.1 = t.1
    | _, _ => return false

mutual

/-- Conditions joined by `-o`. The number bounds the depth. -/
def anyOf (h : Host) : Nat → List Chars → Except Fault (Bool × List Chars)
  | 0, ws => .ok (false, ws)
  | n + 1, ws => do
    let (a, r) ← allOf h n ws
    match r with
    | ['-', 'o'] :: s => do
      let (b, r) ← anyOf h n s
      return (a || b, r)
    | r => return (a, r)

/-- Conditions joined by `-a`. -/
def allOf (h : Host) : Nat → List Chars → Except Fault (Bool × List Chars)
  | 0, ws => .ok (false, ws)
  | n + 1, ws => do
    let (a, r) ← negated h n ws
    match r with
    | ['-', 'a'] :: s => do
      let (b, r) ← allOf h n s
      return (a && b, r)
    | r => return (a, r)

/-- A condition, perhaps negated. -/
def negated (h : Host) : Nat → List Chars → Except Fault (Bool × List Chars)
  | 0, ws => .ok (false, ws)
  | n + 1, ws =>
    match ws with
    | ['!'] :: x :: r =>
      if isOneOf binary x ∧ r ≠ [] then primary h n ws
      else do
        let (a, r) ← negated h n (x :: r)
        return (!a, r)
    | ws => primary h n ws

/-- A single test. -/
def primary (h : Host) : Nat → List Chars → Except Fault (Bool × List Chars)
  | 0, ws => .ok (false, ws)
  | n + 1, ws =>
    match ws with
    | [] => .ok (false, [])
    | a :: o :: b :: r =>
      if isOneOf binary o then do
        let v ← applyBinary h (String.ofList o) a b
        return (v, r)
      else if a = ['('] then do
        let (v, r) ← anyOf h n (o :: b :: r)
        match r with
        | [')'] :: s => return (v, s)
        | _ => .error .closingExpected
      else if isOneOf unary a then
        .ok (applyUnary h (String.ofList a) o, b :: r)
      else .ok (!a.isEmpty, o :: b :: r)
    | [a, x] =>
      if isOneOf unary a then .ok (applyUnary h (String.ofList a) x, [])
      else .ok (!a.isEmpty, [x])
    | [a] => .ok (!a.isEmpty, [])

end

/-- The value of a condition. -/
def holds (h : Host) (ws : List Chars) : Except Fault Bool := do
  if ws = [] then return false
  let (v, r) ← match ws with
    | [['('], x, [')']] => pure (!x.isEmpty, [])
    | [['!'], x] => pure (x.isEmpty, [])
    | ws => anyOf h (4 * ws.length + 4) ws
  if r = [] then return v
  else .error (.unexpectedOperator ((ws[ws.length - r.length - 1]?).getD []))

/-- The value of a condition that has to end in a bracket. -/
def holdsInBrackets (h : Host) (ws : List Chars) : Except Fault Bool :=
  if ws.getLast? = some [']'] then holds h ws.dropLast else .error .missingBracket

end PollWatch.Shell.Condition
