/-!
# How similar two words are

Two characters of two words match when they are equal and not too far apart in place. The
similarity of the words is the mean of three shares: the matched part of the first word, the
matched part of the second, and the part of the matches that stand in the same order. It is kept
as an exact fraction.
-/

namespace PollWatch.Text

/-- A fraction of natural numbers; the denominator is positive unless nothing matched. -/
structure Share where
  numerator : Nat
  denominator : Nat

namespace Share

/-- At least `n / d`. -/
def isAtLeast (s : Share) (n d : Nat) : Bool :=
  0 < s.denominator && n * s.denominator ≤ s.numerator * d

/-- The share `s` is not greater than `t`. -/
def le (s t : Share) : Bool := s.numerator * t.denominator ≤ t.numerator * s.denominator

end Share

/-- Mark the first unmarked `c` whose place lies from `lo` up to and without `hi`. The places
count from `j`. -/
def takeFirst (c : Char) (lo hi : Nat) : Nat → List (Char × Bool) → Option (List (Char × Bool))
  | _, [] => none
  | j, (d, taken) :: rest =>
    if lo ≤ j ∧ j < hi ∧ c = d ∧ taken = false then some ((d, true) :: rest)
    else (takeFirst c lo hi (j + 1) rest).map ((d, taken) :: ·)

/-- The characters of a word that match, and the other word with the matched places marked. Equal
characters match when their places differ by at most `reach`. -/
def pairUp (reach : Nat) : Nat → List Char → List (Char × Bool) → List Char × List (Char × Bool)
  | _, [], marked => ([], marked)
  | i, c :: cs, marked =>
    match takeFirst c (i - reach) (i + reach + 1) 0 marked with
    | some marked =>
      let (found, marked) := pairUp reach (i + 1) cs marked
      (c :: found, marked)
    | none => pairUp reach (i + 1) cs marked

/-- The similarity of two words. -/
def similarity (a b : List Char) : Share :=
  let reach := max a.length b.length / 2 - 1
  let (left, marked) := pairUp reach 0 a (b.map (·, false))
  let right := (marked.filter (·.2)).map (·.1)
  let found := left.length
  let swapped := ((left.zip right).filter fun p => p.1 ≠ p.2).length / 2
  ⟨found * found * b.length + found * found * a.length + (found - swapped) * a.length * b.length,
    3 * a.length * b.length * found⟩

/-- The better of the best word so far and `w`; of equals the later. -/
def better (a : List Char) (best : Option (String × Share)) (w : String) :
    Option (String × Share) :=
  let s := similarity a w.toList
  if s.isAtLeast 7 10 then
    match best with
    | some (v, t) => if t.le s then some (w, s) else some (v, t)
    | none => some (w, s)
  else best

/-- The word most similar to `a` among those whose similarity is at least seven tenths. Of equally
similar words the last is taken. -/
def closest? (a : List Char) (words : List String) : Option String :=
  (words.foldl (better a) none).map (·.1)

end PollWatch.Text
