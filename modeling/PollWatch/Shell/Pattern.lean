import PollWatch.Shell.Syntax
/-!
# Patterns

A pattern matches texts: a star stands for any text, a question mark for any character, and a
bracket for one character of a set. A quoted character stands for itself.
-/

namespace PollWatch.Shell

/-- A character of an expanded word. -/
structure Glyph where
  char : Char
  isQuoted : Bool := false
  /-- It comes from an expansion, and so may separate fields. -/
  isExpanded : Bool := false
deriving DecidableEq

/-- A member of a set in brackets. -/
inductive SetItem where
  | range (first last : Char)
  | named (name : Chars)

/-- One element of a pattern. -/
inductive Glob where
  | char (c : Char)
  | any
  | star
  | set (isNegated : Bool) (items : List SetItem)

namespace SetItem

/-- Whether a character belongs to a named class. -/
def inClass (name : Chars) (c : Char) : Bool :=
  match String.ofList name with
  | "alpha" => c.isAlpha
  | "digit" => c.isDigit
  | "alnum" => c.isAlphanum
  | "upper" => c.isUpper
  | "lower" => c.isLower
  | "space" => c = ' ' || (9 ≤ c.toNat && c.toNat ≤ 13)
  | "blank" => c = ' ' || c = '\t'
  | "punct" => 33 ≤ c.toNat && c.toNat ≤ 126 && !c.isAlphanum
  | "xdigit" => c.isDigit || ('a' ≤ c && c ≤ 'f') || ('A' ≤ c && c ≤ 'F')
  | "cntrl" => c.toNat < 32 || c.toNat = 127
  | "print" => 32 ≤ c.toNat && c.toNat ≤ 126
  | "graph" => 33 ≤ c.toNat && c.toNat ≤ 126
  | _ => false

/-- Whether a character is such a member. -/
def holds (i : SetItem) (c : Char) : Bool :=
  match i with
  | range a b => a ≤ c && c ≤ b
  | named n => inClass n c

end SetItem

namespace Glob

/-- A bracket that closes a set. -/
def closes (g : Glyph) : Bool := g.char = ']' && !g.isQuoted

/-- The name of a character class written between colons, and how many characters it takes up
together with the colon and the bracket behind it. -/
def className? (gs : List Glyph) : Option (Chars × Nat) :=
  let name := (gs.takeWhile (·.char ≠ ':')).map (·.char)
  match gs.drop name.length with
  | ⟨':', _, _⟩ :: ⟨']', _, _⟩ :: _ => some (name, name.length + 2)
  | _ => none

/-- The member of a set that begins with `g`, and how many characters behind `g` it takes up. -/
def item (g : Glyph) (r : List Glyph) : SetItem × Nat :=
  match r with
  | second :: third :: more =>
    if g.char = '[' ∧ g.isQuoted = false ∧ second.char = ':' then
      match className? (third :: more) with
      | some (name, n) => (.named name, n + 1)
      | none => (.range g.char g.char, 0)
    else if second.char = '-' ∧ second.isQuoted = false ∧ closes third = false then
      (.range g.char third.char, 2)
    else (.range g.char g.char, 0)
  | _ => (.range g.char g.char, 0)

/-- The members of a set up to its closing bracket, and what follows. A bracket right at the start
is a member. -/
def items (atStart : Bool) : List Glyph → Option (List SetItem × List Glyph)
  | [] => none
  | g :: r =>
    if closes g && !atStart then some ([], r)
    else (items false (r.drop (item g r).2)).map fun p => ((item g r).1 :: p.1, p.2)
termination_by gs => gs.length
decreasing_by
  simp only [List.length_drop, List.length_cons]
  omega

theorem length_items {b : Bool} {gs : List Glyph} {p : List SetItem × List Glyph}
    (h : items b gs = some p) : p.2.length < gs.length := by
  fun_induction items b gs generalizing p with
  | case1 => cases h
  | case2 =>
    cases h
    simp
  | case3 _ g r _ ih =>
    obtain ⟨q, hq, rfl⟩ := Option.map_eq_some_iff.1 h
    have := ih hq
    simp only [List.length_drop, List.length_cons] at this ⊢
    omega

/-- Whether a set begins with the mark that turns it round. -/
def isNegated : List Glyph → Bool
  | g :: _ => g.char = '!' && !g.isQuoted
  | [] => false

/-- The set behind an opening bracket, and what follows its closing bracket. -/
def set? (r : List Glyph) : Option (Glob × List Glyph) :=
  (items true (if isNegated r then r.drop 1 else r)).map fun p => (.set (isNegated r) p.1, p.2)

theorem length_set? {r : List Glyph} {p : Glob × List Glyph} (h : set? r = some p) :
    p.2.length < r.length := by
  obtain ⟨q, hq, rfl⟩ := Option.map_eq_some_iff.1 h
  have := length_items hq
  split at this
  · simp only [List.length_drop] at this ⊢
    omega
  · exact this

/-- The elements of a pattern. -/
def ofGlyphs : List Glyph → List Glob
  | [] => []
  | g :: r =>
    if g.isQuoted then .char g.char :: ofGlyphs r
    else if g.char = '*' then .star :: ofGlyphs r
    else if g.char = '?' then .any :: ofGlyphs r
    else if g.char = '[' then
      match _h : set? r with
      | some (s, after) => s :: ofGlyphs after
      | none => .char '[' :: ofGlyphs r
    else .char g.char :: ofGlyphs r
termination_by gs => gs.length
decreasing_by
  all_goals simp_wf
  have h : after.length < r.length := length_set? _h
  omega

/-- Whether a pattern matches the whole of a text. -/
def isMatch : List Glob → Chars → Bool
  | [], cs => cs.isEmpty
  | .star :: ps, [] => isMatch ps []
  | .star :: ps, c :: cs => isMatch ps (c :: cs) || isMatch (.star :: ps) cs
  | .any :: ps, _ :: cs => isMatch ps cs
  | .char d :: ps, c :: cs => c = d && isMatch ps cs
  | .set negates is :: ps, c :: cs => (is.any (·.holds c)) != negates && isMatch ps cs
  | _ :: _, [] => false
termination_by ps cs => ps.length + cs.length

end Glob

/-- Whether some character of a word makes it a pattern. -/
def isPattern (gs : List Glyph) : Bool :=
  gs.any fun g => !g.isQuoted && (g.char = '*' || g.char = '?' || g.char = '[')

/-- The characters of a word. -/
def charsOf (gs : List Glyph) : Chars := gs.map (·.char)

/-- Whether the pattern that a word makes matches a text. -/
def patternMatches (gs : List Glyph) (cs : Chars) : Bool := Glob.isMatch (Glob.ofGlyphs gs) cs

end PollWatch.Shell
