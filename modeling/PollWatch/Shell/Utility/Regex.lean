import PollWatch.Shell.Utility.Basic
import PollWatch.Shell.Pattern
/-!
# Regular expressions

A regular expression is a run of atoms: characters, sets, a point for any character, each perhaps
repeated, and marks for the two ends of a line. In the extended form a plus sign and a question
mark repeat too. A repetition takes as much as it can.
-/

namespace PollWatch.Shell.Utility

/-- How often an atom may stand. -/
inductive Repeat where
  | once
  | many
  | some
  | optional

/-- One atom of a regular expression, with its repetition. -/
structure Atom where
  /-- A pattern for one character; none for the end of the line. -/
  glob? : Option Glob
  repetition : Repeat := .once

/-- A regular expression without choices. -/
structure Regex where
  atStart : Bool := false
  atoms : List Atom

/-- The repetition that a character denotes. -/
def repetitionOf (extended : Bool) (cs : Chars) : Repeat × Nat :=
  match cs with
  | '*' :: _ => (.many, 1)
  | '+' :: _ => if extended then (.some, 1) else (.once, 0)
  | '?' :: _ => if extended then (.optional, 1) else (.once, 0)
  | '\\' :: '+' :: _ => if extended then (.once, 0) else (.some, 2)
  | '\\' :: '?' :: _ => if extended then (.once, 0) else (.optional, 2)
  | _ => (.once, 0)

/-- The atoms of a regular expression. The number bounds its length. -/
def atomsOf (extended : Bool) : Nat → Chars → List Atom
  | 0, _ => []
  | n + 1, cs =>
    let one (g : Glob) (r : Chars) : List Atom :=
      let (k, count) := repetitionOf extended r
      ⟨some g, k⟩ :: atomsOf extended n (r.drop count)
    match cs with
    | [] => []
    | ['$'] => [⟨none, .once⟩]
    | '\\' :: c :: r => one (.char c) r
    | '.' :: r => one .any r
    | '[' :: r =>
      let (negated, r) := match r with
        | '^' :: s => (true, s)
        | s => (false, s)
      match Glob.items true (r.map fun c => ⟨c, false, false⟩) with
      | some (is, after) => one (.set negated is) (after.map (·.char))
      | none => one (.char '[') r
    | c :: r => one (.char c) r

/-- The regular expression that a text spells. -/
def Regex.ofChars (extended : Bool) (cs : Chars) : Regex :=
  match cs with
  | '^' :: r => ⟨true, atomsOf extended (r.length + 1) r⟩
  | r => ⟨false, atomsOf extended (r.length + 1) r⟩

/-- What follows the beginning of a text that atoms match, if they do. The number bounds the
work. -/
def restAfter : Nat → List Atom → Chars → Option Chars
  | 0, _, _ => none
  | n + 1, atoms, cs =>
    let fits (g : Glob) (c : Char) : Bool := Glob.isMatch [g] [c]
    match atoms with
    | [] => some cs
    | ⟨none, _⟩ :: r => if cs.isEmpty then restAfter n r cs else none
    | ⟨some g, .once⟩ :: r =>
      match cs with
      | c :: cs => if fits g c then restAfter n r cs else none
      | [] => none
    | ⟨some g, .optional⟩ :: r =>
      (restAfter n (⟨some g, .once⟩ :: r) cs).orElse fun _ => restAfter n r cs
    | ⟨some g, .some⟩ :: r => restAfter n (⟨some g, .once⟩ :: ⟨some g, .many⟩ :: r) cs
    | ⟨some g, .many⟩ :: r =>
      let longer := match cs with
        | c :: cs => if fits g c then restAfter n (⟨some g, .many⟩ :: r) cs else none
        | [] => none
      longer.orElse fun _ => restAfter n r cs

/-- What follows a match at the beginning of a text. -/
def Regex.after? (x : Regex) (cs : Chars) : Option Chars :=
  restAfter (3 * (cs.length + x.atoms.length) + 4) x.atoms cs

/-- Where an expression matches first in a text: what stands before the match, the match, and what
follows. -/
def Regex.find? (x : Regex) (before : Chars) : Chars → Option (Chars × Chars × Chars)
  | [] => (x.after? []).map fun r => (before.reverse, [], r)
  | c :: cs =>
    match x.after? (c :: cs) with
    | some r => some (before.reverse, (c :: cs).take (cs.length + 1 - r.length), r)
    | none => if x.atStart then none else x.find? (c :: before) cs

/-- Whether an expression matches somewhere in a line, or all of it. -/
def Regex.isFound (x : Regex) (whole : Bool) (l : Chars) : Bool :=
  if whole then
    (restAfter (3 * (l.length + x.atoms.length) + 7) (x.atoms ++ [⟨none, .once⟩]) l).isSome
  else (x.find? [] l).isSome

end PollWatch.Shell.Utility
