import PollWatch.Text.Utf8
import PollWatch.Text.Unprintable
/-!
# Quoted text

In messages a path or a command stands in double quotes. The quote and the backslash are
escaped, and so is every character that would not show; bytes that are not text are shown as
hexadecimal numbers.
-/

namespace PollWatch.Text

/-- A lower-case hexadecimal numeral without leading zeros. -/
def hexadecimal (n : Nat) : List Char := Nat.toDigits 16 n

/-- A byte as two upper-case hexadecimal digits. -/
def hexByte (b : UInt8) : List Char :=
  [(Nat.digitChar (b.toNat / 16)).toUpper, (Nat.digitChar (b.toNat % 16)).toUpper]

/-- A character as it stands between quotes. -/
def escaped (c : Char) : List Char :=
  if c = '\x00' then ['\\', '0']
  else if c = '\t' then ['\\', 't']
  else if c = '\r' then ['\\', 'r']
  else if c = '\n' then ['\\', 'n']
  else if c = '\\' then ['\\', '\\']
  else if c = '"' then ['\\', '"']
  else if isUnprintable c then ['\\', 'u', '\x7b'] ++ hexadecimal c.toNat ++ ['\x7d']
  else [c]

/-- A piece of a byte string as it stands between quotes. -/
def escapedPiece : Utf8.Piece → List Char
  | .char c => escaped c
  | .faulty b => b.flatMap fun x => ['\\', 'x'] ++ hexByte x

/-- A byte string in double quotes. -/
def quoted (b : Bytes) : String :=
  String.ofList (['"'] ++ (Utf8.pieces b).flatMap escapedPiece ++ ['"'])

/-- A text in double quotes. -/
def quotedString (s : String) : String :=
  String.ofList (['"'] ++ s.toList.flatMap escaped ++ ['"'])

end PollWatch.Text
