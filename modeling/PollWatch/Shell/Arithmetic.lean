import PollWatch.Shell.Syntax
/-!
# Arithmetic

Expressions over whole numbers of 64 bits, with the operators of the C language. A variable stands
for the number that its value spells, and for zero without a value. Assignments are collected and
handed back.
-/

namespace PollWatch.Shell.Arithmetic

/-- Why an expression has no value. -/
inductive Fault where
  | divisionByZero
  | expectingPrimary
  | expectingEnd
  | openParenthesis
  | badNumber (cs : Chars)

/-- A number of 64 bits. -/
def wrap (n : Int) : Int := Int.bmod n 18446744073709551616

/-- The elements of an expression. -/
inductive Symbol where
  | number (n : Int)
  | variable (name : Chars)
  | operator (o : String)
deriving DecidableEq

/-- The operators, longer ones before their beginnings. -/
def operators : List String :=
  ["<<=", ">>=", "<<", ">>", "<=", ">=", "==", "!=", "&&", "||", "+=", "-=", "*=", "/=", "%=", "&=",
    "^=", "|=", "+", "-", "*", "/", "%", "~", "!", "<", ">", "&", "^", "|", "?", ":", "(", ")", "="]

/-- The value of a digit. -/
def digitValue (c : Char) : Option Nat :=
  if '0' ≤ c ∧ c ≤ '9' then some (c.toNat - '0'.toNat)
  else if 'a' ≤ c ∧ c ≤ 'f' then some (c.toNat - 'a'.toNat + 10)
  else if 'A' ≤ c ∧ c ≤ 'F' then some (c.toNat - 'A'.toNat + 10)
  else none

/-- The greatest number of 64 bits with a sign. -/
def greatest : Int := 9223372036854775807

/-- The number that the digits of a base at the front of a text make, and what follows them. Too
large a number counts as the greatest. -/
def leadingDigits (base : Nat) (cs : Chars) : Int × Chars :=
  let value? (c : Char) : Option Nat := (digitValue c).filter (· < base)
  let ds := cs.takeWhile fun c => (value? c).isSome
  (min greatest (ds.foldl (fun n c => n * base + (value? c).getD 0) 0 : Nat), cs.drop ds.length)

/-- The number at the front of a text, and what follows it: decimal, octal behind a zero,
hexadecimal behind `0x`. -/
def leadingNumeral (cs : Chars) : Int × Chars :=
  match cs with
  | '0' :: x :: d :: r =>
    if (x = 'x' ∨ x = 'X') ∧ (digitValue d).isSome then leadingDigits 16 (d :: r)
    else leadingDigits 8 cs
  | '0' :: _ => leadingDigits 8 cs
  | cs => leadingDigits 10 cs

/-- The number that a text spells from its beginning to its end. -/
def numeral? (cs : Chars) : Option Int :=
  match cs with
  | [] => none
  | c :: _ =>
    if c.isDigit then
      match leadingNumeral cs with
      | (n, []) => some n
      | _ => none
    else none

/-- The number that the value of a variable spells, with a sign and blanks around it. -/
def valueOf? (cs : Chars) : Option Int :=
  let isBlank (c : Char) : Bool := c = ' ' || (9 ≤ c.toNat && c.toNat ≤ 13)
  let cs := ((cs.dropWhile isBlank).reverse.dropWhile isBlank).reverse
  match cs with
  | [] => some 0
  | '-' :: r => (numeral? r).map fun n => wrap (-n)
  | '+' :: r => numeral? r
  | cs => numeral? cs

/-- The elements of an expression. The number bounds how many there are. -/
def symbols : Nat → Chars → Except Fault (List Symbol)
  | 0, _ => .ok []
  | n + 1, cs =>
    match cs with
    | [] => .ok []
    | c :: r =>
      if c = ' ' ∨ c = '\t' ∨ c = '\n' then symbols n r
      else if c.isDigit then do
        let (v, after) := leadingNumeral cs
        let rest ← symbols n after
        .ok (.number v :: rest)
      else if c.isAlpha ∨ c = '_' then do
        let word := cs.takeWhile fun d => d.isAlphanum || d = '_'
        let rest ← symbols n (cs.drop word.length)
        .ok (.variable word :: rest)
      else
        match operators.find? fun o => o.toList.isPrefixOf cs with
        | some o => do
          let rest ← symbols n (cs.drop o.length)
          .ok (.operator o :: rest)
        | none => do
          let rest ← symbols n r
          .ok (.operator (String.ofList [c]) :: rest)

/-- How strongly a binary operator binds. -/
def strength : String → Option Nat
  | "||" => some 1
  | "&&" => some 2
  | "|" => some 3
  | "^" => some 4
  | "&" => some 5
  | "==" => some 6
  | "!=" => some 6
  | "<" => some 7
  | "<=" => some 7
  | ">" => some 7
  | ">=" => some 7
  | "<<" => some 8
  | ">>" => some 8
  | "+" => some 9
  | "-" => some 9
  | "*" => some 10
  | "/" => some 10
  | "%" => some 10
  | _ => none

/-- One or zero. -/
def truth (b : Bool) : Int := if b then 1 else 0

/-- The value as a number of 64 bits without sign. -/
def unsigned (n : Int) : Nat := (n % 18446744073709551616).toNat

/-- The value of a binary operator. -/
def apply (o : String) (a b : Int) : Except Fault Int :=
  match o with
  | "||" => .ok (truth (a ≠ 0 ∨ b ≠ 0))
  | "&&" => .ok (truth (a ≠ 0 ∧ b ≠ 0))
  | "|" => .ok (wrap (unsigned a ||| unsigned b))
  | "^" => .ok (wrap (unsigned a ^^^ unsigned b))
  | "&" => .ok (wrap (unsigned a &&& unsigned b))
  | "==" => .ok (truth (a = b))
  | "!=" => .ok (truth (a ≠ b))
  | "<" => .ok (truth (a < b))
  | "<=" => .ok (truth (a ≤ b))
  | ">" => .ok (truth (b < a))
  | ">=" => .ok (truth (b ≤ a))
  | "<<" => .ok (wrap (a <<< (unsigned b % 64)))
  | ">>" => .ok (wrap (a >>> (unsigned b % 64)))
  | "+" => .ok (wrap (a + b))
  | "-" => .ok (wrap (a - b))
  | "*" => .ok (wrap (a * b))
  | "/" => if b = 0 then .error .divisionByZero else .ok (wrap (Int.tdiv a b))
  | "%" => if b = 0 then .error .divisionByZero else .ok (wrap (Int.tmod a b))
  | _ => .error .expectingPrimary

/-- The variables that an expression reads and sets. -/
structure Scope where
  lookup : Chars → Option Chars
  /-- The assignments made, the last first. -/
  assigned : List (Chars × Int) := []

/-- Reading an expression: what is left of it and the variables. -/
abbrev Eval := StateT (List Symbol × Scope) (Except Fault)

/-- The operator that stands next. -/
def next? : Eval (Option String) := do
  match (← get).1 with
  | .operator o :: _ => return some o
  | _ => return none

/-- Take what stands next. -/
def advance : Eval Unit := modify fun s => (s.1.drop 1, s.2)

/-- The value of a variable. -/
def read (name : Chars) : Eval Int := do
  let s := (← get).2
  match s.assigned.lookup name with
  | some v => return v
  | none =>
    let text := (s.lookup name).getD []
    match valueOf? text with
    | some v => return v
    | none => throw (.badNumber text)

/-- Assign to a variable. When `live` is false nothing is assigned. -/
def assign (live : Bool) (name : Chars) (v : Int) : Eval Unit :=
  if live then modify fun s => (s.1, { s.2 with assigned := (name, v) :: s.2.assigned }) else pure ()

mutual

/-- A number, a variable, an assignment, a sign or an expression in parentheses. Where `live` is
false the value does not count, and faults and assignments are left out. -/
def primary : Nat → Bool → Eval Int
  | 0, _ => throw .expectingPrimary
  | n + 1, live => do
    match (← get).1 with
    | .number v :: _ => do
      advance
      return v
    | .variable name :: .operator o :: _ => do
      advance
      if o = "=" then do
        advance
        let v ← conditional n live
        assign live name v
        return v
      else if o ∈ ["+=", "-=", "*=", "/=", "%=", "&=", "^=", "|=", "<<=", ">>="] then do
        advance
        let v ← conditional n live
        let old ← read name
        if live then do
          let new ← apply (String.ofList o.toList.dropLast) old v
          assign live name new
          return new
        else return 0
      else read name
    | .variable name :: _ => do
      advance
      read name
    | .operator "(" :: _ => do
      advance
      let v ← conditional n live
      if (← next?) = some ")" then do
        advance
        return v
      else throw .openParenthesis
    | .operator "-" :: _ => do
      advance
      return wrap (-(← primary n live))
    | .operator "+" :: _ => do
      advance
      primary n live
    | .operator "!" :: _ => do
      advance
      return truth ((← primary n live) = 0)
    | .operator "~" :: _ => do
      advance
      return wrap (-(← primary n live) - 1)
    | _ => throw .expectingPrimary

/-- Operands joined by operators that bind at least as strongly as `least`, behind `a`. -/
def binary : Nat → Bool → Nat → Int → Eval Int
  | 0, _, _, _ => throw .expectingPrimary
  | n + 1, live, least, a => do
    match ← next? with
    | none => return a
    | some o =>
      match strength o with
      | none => return a
      | some k =>
        if k < least then return a
        else do
          advance
          let counts := if o = "&&" then live && a ≠ 0 else if o = "||" then live && a = 0 else live
          let b ← primary n counts
          let b ← binary n counts (k + 1) b
          if live then do
            let v ← apply o a (if counts then b else 0)
            binary n live least v
          else binary n live least 0

/-- A choice between two expressions, or an expression without one. -/
def conditional : Nat → Bool → Eval Int
  | 0, _ => throw .expectingPrimary
  | n + 1, live => do
    let a ← primary n live
    let a ← binary n live 1 a
    if (← next?) = some "?" then do
      advance
      let yes ← conditional n (live && a ≠ 0)
      if (← next?) = some ":" then do
        advance
        let no ← conditional n (live && a = 0)
        return if a ≠ 0 then yes else no
      else throw .expectingPrimary
    else return a

end

/-- The value of an expression and the assignments it makes, in order. -/
def evaluate (lookup : Chars → Option Chars) (cs : Chars) :
    Except Fault (Int × List (Chars × Int)) := do
  let ss ← symbols (cs.length + 1) cs
  let (v, left, scope) ← (conditional (4 * ss.length + 8) true).run (ss, { lookup := lookup })
  if left = [] then return (v, scope.assigned.reverse) else throw .expectingEnd

namespace Fault

/-- The text of a fault of the expression `cs`. -/
def message (f : Fault) (cs : String) : String :=
  let shown := ": \"" ++ cs ++ "\""
  match f with
  | .divisionByZero => "arithmetic expression: division by zero" ++ shown
  | .expectingPrimary => "arithmetic expression: expecting primary" ++ shown
  | .expectingEnd => "arithmetic expression: expecting EOF" ++ shown
  | .openParenthesis => "arithmetic expression: expecting ')'" ++ shown
  | .badNumber n => "Illegal number: " ++ String.ofList n

end Fault

end PollWatch.Shell.Arithmetic
