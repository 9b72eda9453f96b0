/-!
# Byte strings

Arguments, paths and streams are byte strings: what the operating system hands over need not be
text. This module ties them to text where they are text.

Main statements: `text?_ofString` and `ofString_of_text?`: reading bytes as text undoes writing
text as bytes, and the bytes that read as a text are exactly its encoding.
-/

namespace PollWatch

/-- A string of bytes, with no promise that it is text. -/
abbrev Bytes := List UInt8

namespace Bytes

/-- The UTF-8 encoding of a text. -/
def ofString (s : String) : Bytes := s.toUTF8.data.toList

/-- The text that these bytes encode; none when they are not UTF-8. -/
def text? (b : Bytes) : Option String := String.fromUTF8? ⟨b.toArray⟩

theorem text?_ofString (s : String) : text? (ofString s) = some s := by
  simp only [text?, ofString, Array.toArray_toList, String.fromUTF8?]
  exact dif_pos s.isValidUTF8

theorem ofString_of_text? {b : Bytes} {s : String} (h : text? b = some s) : ofString s = b := by
  simp only [text?, String.fromUTF8?] at h
  split at h
  · cases h
    rfl
  · cases h

/-- Bytes are ordered as unsigned numbers, and a proper beginning comes first. -/
def isBefore : Bytes → Bytes → Bool
  | [], _ => true
  | _ :: _, [] => false
  | x :: xs, y :: ys => if x = y then isBefore xs ys else decide (x < y)

end Bytes

end PollWatch
