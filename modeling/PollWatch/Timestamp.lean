/-!
# Timestamps

A modification time is read as whole nanoseconds since the epoch. A system time may lie before
the epoch, and then it is no timestamp.

Main statements: `ofInstant?_eq_some_iff` and `ofInstant?_eq_none_iff` say which system times
are timestamps and which one each is.
-/

namespace PollWatch

/-- A point of system time: nanoseconds since the epoch, negative before it. -/
abbrev Instant := Int

/-- Nanoseconds since the epoch. -/
structure Timestamp where
  nanos : Nat
deriving DecidableEq, Repr

namespace Timestamp

instance : LE Timestamp := ⟨fun s t => s.nanos ≤ t.nanos⟩
instance : LT Timestamp := ⟨fun s t => s.nanos < t.nanos⟩
instance (s t : Timestamp) : Decidable (s ≤ t) := inferInstanceAs (Decidable (s.nanos ≤ t.nanos))
instance (s t : Timestamp) : Decidable (s < t) := inferInstanceAs (Decidable (s.nanos < t.nanos))
instance : Max Timestamp := ⟨fun s t => ⟨Nat.max s.nanos t.nanos⟩⟩

/-- The epoch, which also stands for "nothing seen yet". -/
def zero : Timestamp := ⟨0⟩

/-- The timestamp of a system time; none before the epoch. -/
def ofInstant? (i : Instant) : Option Timestamp :=
  if 0 ≤ i then some ⟨i.toNat⟩ else none

theorem ofInstant?_eq_none_iff {i : Instant} : ofInstant? i = none ↔ i < 0 := by
  simp [ofInstant?]

theorem ofInstant?_eq_some_iff {i : Instant} {t : Timestamp} :
    ofInstant? i = some t ↔ i = t.nanos := by
  obtain ⟨n⟩ := t
  simp only [ofInstant?, Option.ite_none_right_eq_some, Option.some.injEq, mk.injEq]
  constructor
  · rintro ⟨h, rfl⟩
    exact (Int.toNat_of_nonneg h).symm
  · rintro rfl
    exact ⟨Int.natCast_nonneg n, Int.toNat_natCast n⟩

/-- How many nanoseconds make a second. -/
def perSecond : Nat := 1000000000

/-- The last `width` decimal digits of `n`, with leading zeros. -/
def lastDigits : Nat → Nat → List Char
  | 0, _ => []
  | width + 1, n => lastDigits width (n / 10) ++ [Nat.digitChar (n % 10)]

/-- Whole seconds, a point, and exactly nine digits. -/
def chars (t : Timestamp) : List Char :=
  Nat.toDigits 10 (t.nanos / perSecond) ++ '.' :: lastDigits 9 (t.nanos % perSecond)

/-- The text of a timestamp, such as `12.000000345`. -/
def text (t : Timestamp) : String := String.ofList t.chars

/-- The newest of some timestamps, zero if there is none. -/
def newest (ts : List Timestamp) : Timestamp := ts.foldl max zero

end Timestamp

end PollWatch
