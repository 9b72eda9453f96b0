import PollWatch.Bytes
/-!
# Intervals

An interval is written in decimal digits, which a plus sign may precede, and lies between one and
the greatest number of 64 bits.
-/

namespace PollWatch.CommandLine

/-- Why a word is no interval. -/
inductive IntervalFault where
  | empty
  | invalidDigit
  | tooLarge
  | zero

namespace IntervalFault

/-- The text of a fault. -/
def message : IntervalFault → String
  | .empty => "cannot parse integer from empty string"
  | .invalidDigit => "invalid digit found in string"
  | .tooLarge => "number too large to fit in target type"
  | .zero => "0 is not in 1..18446744073709551615"

end IntervalFault

/-- The greatest number of 64 bits. -/
def maxInterval : Nat := 18446744073709551615

/-- The value of an ASCII digit. -/
def digit? (b : UInt8) : Option Nat :=
  if 48 ≤ b ∧ b ≤ 57 then some (b.toNat - 48) else none

/-- Read digits behind those that make `n`. The first digit that is none, or that makes the
number too large, decides. -/
def readDigits (n : Nat) : Bytes → Except IntervalFault Nat
  | [] => .ok n
  | b :: bs =>
    match digit? b with
    | none => .error .invalidDigit
    | some d => if maxInterval < n * 10 + d then .error .tooLarge else readDigits (n * 10 + d) bs

/-- A number, behind at most one plus sign. -/
def readNumber : Bytes → Except IntervalFault Nat
  | [] => .error .empty
  | b :: bs => if b = 43 ∧ bs ≠ [] then readDigits 0 bs else readDigits 0 (b :: bs)

/-- The interval that a word denotes. -/
def readInterval (w : Bytes) : Except IntervalFault Nat :=
  match readNumber w with
  | .ok 0 => .error .zero
  | r => r

end PollWatch.CommandLine
