import PollWatch.Shell.Utility.Basic
import PollWatch.Timestamp
/-!
# Times as users write them

A time is written as seconds behind an at sign, as a date with or without a time of day, or as a
run of digits that ends with the minute and perhaps the second. There are no time zones.
-/

namespace PollWatch.Shell.Utility

/-- The days from the epoch to a date. The year is counted from March, so that a leap day comes
last. -/
def daysOfDate (year month day : Int) : Int :=
  let y := if month ≤ 2 then year - 1 else year
  let era := y / 400
  let yearOfEra := y - era * 400
  let dayOfYear := (153 * (if month > 2 then month - 3 else month + 9) + 2) / 5 + day - 1
  let dayOfEra := yearOfEra * 365 + yearOfEra / 4 - yearOfEra / 100 + dayOfYear
  era * 146097 + dayOfEra - 719468

/-- The instant of a date and a time of day. -/
def instantOf (year month day hour minute second : Int) : Instant :=
  (daysOfDate year month day * 86400 + hour * 3600 + minute * 60 + second) * 1000000000

/-- The part of a second that digits behind a point denote, in nanoseconds. -/
def fraction? (ds : Chars) : Option Int :=
  if ds ≠ [] ∧ ds.all Char.isDigit then
    (decimal? ((ds ++ List.replicate 9 '0').take 9)).map Int.ofNat
  else none

/-- Seconds with an optional fraction, in nanoseconds. -/
def seconds? (cs : Chars) : Option Int := do
  let whole := cs.takeWhile (· ≠ '.')
  let (sign, ds) : Int × Chars := match whole with
    | '-' :: r => (-1, r)
    | r => (1, r)
  let n ← decimal? ds
  let nanos ← match cs.drop whole.length with
    | [] => some 0
    | _ :: r => fraction? r
  return sign * (n * 1000000000 + nanos)

/-- The days from the epoch to a date such as `2024-02-29`. -/
def date? (cs : Chars) : Option Int :=
  match (cutAt '-' cs).mapM decimal? with
  | some [y, m, d] =>
    if 1 ≤ m ∧ m ≤ 12 ∧ 1 ≤ d ∧ d ≤ 31 then some (daysOfDate y m d) else none
  | _ => none

/-- A time of day such as `12:30` or `12:30:15.5`, in nanoseconds. -/
def timeOfDay? (cs : Chars) : Option Int :=
  match cutAt ':' cs with
  | [h, m] => do
    let h ← decimal? h
    let m ← decimal? m
    if h < 24 ∧ m < 60 then some ((h * 3600 + m * 60 : Nat) * 1000000000) else none
  | [h, m, s] => do
    let h ← decimal? h
    let m ← decimal? m
    let s ← seconds? s
    if h < 24 ∧ m < 60 then some ((h * 3600 + m * 60 : Nat) * 1000000000 + s) else none
  | _ => none

/-- The words of a text. -/
def wordsOf (cs : Chars) : List Chars := (cutAt ' ' cs).filter (· ≠ [])

/-- The instant that a text denotes. -/
def instant? (cs : Chars) : Option Instant :=
  match cs with
  | '@' :: r => seconds? r
  | cs =>
    let cs := if cs.getLast? = some 'Z' then cs.dropLast else cs
    let words := match wordsOf cs with
      | w :: r => cutAt 'T' w ++ r
      | [] => []
    match words.filter fun w => w ≠ "UTC".toList ∧ w ≠ "+0000".toList with
    | [d] => (date? d).map (· * 86400000000000)
    | [d, t] => do
      let d ← date? d
      let t ← timeOfDay? t
      return d * 86400000000000 + t
    | _ => none

/-- The instant that a run of digits denotes, such as `202402291230.15`. -/
def stamp? (cs : Chars) : Option Instant := do
  let whole := cs.takeWhile (· ≠ '.')
  let second ← match cs.drop whole.length with
    | [] => some 0
    | _ :: r => decimal? r
  let two (n : Nat) : Option Nat := decimal? ((whole.drop n).take 2)
  let (year, n) ← match whole.length with
    | 12 => do
      let y ← decimal? (whole.take 4)
      some (y, 4)
    | 10 => do
      let y ← two 0
      some (if y < 69 then 2000 + y else 1900 + y, 2)
    | _ => none
  let month ← two n
  let day ← two (n + 2)
  let hour ← two (n + 4)
  let minute ← two (n + 6)
  return instantOf year month day hour minute second

end PollWatch.Shell.Utility
