import PollWatch.Bytes
/-!
# Reading bytes as text, piece by piece

Bytes that are not UTF-8 still have to be shown. They are read from the left as characters and
as faulty runs; a faulty run is the longest beginning of a character that the next byte breaks
off, or a single byte that begins none.
-/

namespace PollWatch.Text.Utf8

/-- What stands next in a byte string: a character, or bytes that are none. -/
inductive Piece where
  | char (c : Char)
  | faulty (bytes : Bytes)

/-- A byte that may follow the first byte of a character. -/
def isContinuation (b : UInt8) : Bool := 0x80 ≤ b && b ≤ 0xBF

/-- The bytes that may stand second after `lead`, for a character of three or four bytes: the
others would spell a character that has a shorter spelling, a surrogate, or none at all. -/
def mayFollow (lead second : UInt8) : Bool :=
  if lead = 0xE0 then 0xA0 ≤ second && second ≤ 0xBF
  else if lead = 0xED then 0x80 ≤ second && second ≤ 0x9F
  else if lead = 0xF0 then 0x90 ≤ second && second ≤ 0xBF
  else if lead = 0xF4 then 0x80 ≤ second && second ≤ 0x8F
  else isContinuation second

/-- The character with these leading bits and continuation bytes. -/
def assemble (lead : Nat) (rest : Bytes) : Char :=
  Char.ofNat (rest.foldl (fun n b => n * 64 + (b.toNat - 0x80)) lead)

/-- The first piece of a non-empty byte string, and how many bytes follow its first byte. -/
def firstPiece (b : UInt8) (rest : Bytes) : Piece × Nat :=
  if b < 0x80 then (.char (Char.ofNat b.toNat), 0)
  else if 0xC2 ≤ b && b ≤ 0xDF then
    match rest with
    | c :: _ =>
      if isContinuation c then (.char (assemble (b.toNat - 0xC0) [c]), 1) else (.faulty [b], 0)
    | [] => (.faulty [b], 0)
  else if 0xE0 ≤ b && b ≤ 0xEF then
    match rest with
    | c :: d :: _ =>
      if mayFollow b c then
        if isContinuation d then (.char (assemble (b.toNat - 0xE0) [c, d]), 2)
        else (.faulty [b, c], 1)
      else (.faulty [b], 0)
    | [c] => if mayFollow b c then (.faulty [b, c], 1) else (.faulty [b], 0)
    | [] => (.faulty [b], 0)
  else if 0xF0 ≤ b && b ≤ 0xF4 then
    match rest with
    | c :: d :: e :: _ =>
      if mayFollow b c then
        if isContinuation d then
          if isContinuation e then (.char (assemble (b.toNat - 0xF0) [c, d, e]), 3)
          else (.faulty [b, c, d], 2)
        else (.faulty [b, c], 1)
      else (.faulty [b], 0)
    | [c, d] =>
      if mayFollow b c then
        if isContinuation d then (.faulty [b, c, d], 2) else (.faulty [b, c], 1)
      else (.faulty [b], 0)
    | [c] => if mayFollow b c then (.faulty [b, c], 1) else (.faulty [b], 0)
    | [] => (.faulty [b], 0)
  else (.faulty [b], 0)

/-- The pieces of a byte string, from the left. -/
def pieces : Bytes → List Piece
  | [] => []
  | b :: rest => (firstPiece b rest).1 :: pieces (rest.drop (firstPiece b rest).2)
termination_by b => b.length
decreasing_by
  simp only [List.length_drop, List.length_cons]
  omega

/-- The text with a replacement character for each faulty run. -/
def lossy (b : Bytes) : String :=
  String.ofList ((pieces b).map fun
    | .char c => c
    | .faulty _ => '\uFFFD')

end PollWatch.Text.Utf8
