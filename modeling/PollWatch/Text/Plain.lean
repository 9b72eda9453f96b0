/-!
# Text without terminal control

A message may quote what the user wrote, and that may hold sequences which a terminal would obey.
They are left out: control characters other than white space, and escape sequences as a whole.
-/

namespace PollWatch.Text

/-- Where one stands in a text that may hold escape sequences. -/
inductive Escape where
  /-- Outside any sequence. -/
  | outside
  /-- Behind an escape character. -/
  | begun
  /-- Behind an intermediate character of a short sequence. -/
  | intermediate
  /-- In the parameters of a control sequence. -/
  | parameters
  /-- In a string that ends with a bell or an escape. -/
  | command
  /-- In a string that ends with an escape. -/
  | payload

/-- White space that a terminal carries out without harm. -/
def isSafeControl (c : Char) : Bool := c = '\t' || c = '\n' || c = '\x0c' || c = '\r'

/-- Whether a character is kept, and where one stands behind it. -/
def Escape.next (e : Escape) (c : Char) : Bool × Escape :=
  if c = '\x1b' then (false, .begun)
  else if c = '\x18' ∨ c = '\x1a' then (false, .outside)
  else if 0x80 ≤ c.toNat then (true, .outside)
  else
    match e with
    | .outside => (isSafeControl c || (' ' ≤ c && c ≠ '\x7f'), .outside)
    | .command => (false, if c = '\x07' then .outside else .command)
    | .payload => (false, .payload)
    | .begun =>
      if c < ' ' then (isSafeControl c, if isSafeControl c then .outside else .begun)
      else if c < '0' then (false, .intermediate)
      else if c = '[' then (false, .parameters)
      else if c = ']' then (false, .command)
      else if c = 'P' ∨ c = 'X' ∨ c = '^' ∨ c = '_' then (false, .payload)
      else (false, if c = '\x7f' then .begun else .outside)
    | .intermediate =>
      if c < ' ' then (isSafeControl c, if isSafeControl c then .outside else .intermediate)
      else (false, if c < '0' ∨ c = '\x7f' then .intermediate else .outside)
    | .parameters =>
      if c < ' ' then (isSafeControl c, if isSafeControl c then .outside else .parameters)
      else (false, if c < '@' ∨ c = '\x7f' then .parameters else .outside)

/-- The characters kept from a text. -/
def keepPlain : Escape → List Char → List Char
  | _, [] => []
  | e, c :: cs =>
    if (e.next c).1 then c :: keepPlain (e.next c).2 cs else keepPlain (e.next c).2 cs

/-- The text without terminal control. -/
def plain (s : String) : String := String.ofList (keepPlain .outside s.toList)

end PollWatch.Text
