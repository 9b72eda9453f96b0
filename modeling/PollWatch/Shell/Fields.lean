import PollWatch.Host.Lookup
import PollWatch.Shell.Pattern
/-!
# From an expanded word to fields

What expansions left of a word is cut into fields where separators stand. Each field that is a
pattern is replaced by the paths it matches, in order, if there are any.
-/

namespace PollWatch.Shell

/-- An element of an expanded word. -/
inductive Item where
  | glyph (g : Glyph)
  /-- Something quoted stands here, which makes a field even if it is empty. -/
  | mark
  /-- One field ends here and another begins. -/
  | gap

/-- The glyphs of a text. -/
def Item.ofChars (isQuoted isExpanded : Bool) (cs : Chars) : List Item :=
  cs.map fun c => .glyph ⟨c, isQuoted, isExpanded⟩

/-- White space among separators. -/
def isBlankSeparator (c : Char) : Bool := c = ' ' || c = '\t' || c = '\n'

/-- Cut an expanded word into fields. `field` holds the present field backwards, if there is one.
`closed` says that white space has ended a field, so that the next other separator belongs to
it. -/
def splitFields (separators : Chars) (field? : Option (List Glyph)) (closed : Bool) :
    List Item → List (List Glyph)
  | [] =>
    match field? with
    | some f => [f.reverse]
    | none => []
  | .mark :: r => splitFields separators (some (field?.getD [])) false r
  | .gap :: r =>
    match field? with
    | some f => f.reverse :: splitFields separators none false r
    | none => splitFields separators none false r
  | .glyph g :: r =>
    if g.isExpanded && !g.isQuoted && g.char ∈ separators then
      if isBlankSeparator g.char then
        match field? with
        | some f => f.reverse :: splitFields separators none true r
        | none => splitFields separators none closed r
      else if closed then splitFields separators none false r
      else (field?.getD []).reverse :: splitFields separators none false r
    else splitFields separators (some (g :: field?.getD [])) false r

/-- All glyphs of an expanded word in one field; a space stands where fields were separate. -/
def joinItems (items : List Item) : List Glyph :=
  items.flatMap fun
    | .glyph g => [g]
    | .mark => []
    | .gap => [⟨' ', true, false⟩]

/-- Cut a word at its slashes. -/
def splitSlashes : List Glyph → List (List Glyph)
  | [] => [[]]
  | g :: r =>
    if g.char = '/' then [] :: splitSlashes r
    else
      match splitSlashes r with
      | s :: ss => (g :: s) :: ss
      | [] => [[g]]

/-- Whether something stands at a path. -/
def isThere (h : Host) (cs : Chars) : Bool := (h.find false (.ofBytes (toBytes cs))).isOk

/-- The names in a directory that match a pattern, in order. Names that begin with a point are
left out unless the pattern begins with one. -/
def matchingNames (h : Host) (directory : Chars) (pattern : List Glyph) : List Chars :=
  match h.find true (if directory = [] then .dot else .ofBytes (toBytes directory)) with
  | .ok (q, .directory _) =>
    let showsHidden := pattern.head?.any (·.char = '.')
    let names := (h.names q).map fun s => ofBytes s.bytes
    (names.filter fun n =>
      (showsHidden || n.head? ≠ some '.') && patternMatches pattern n).mergeSort
        fun a b => Bytes.isBefore (toBytes a) (toBytes b)
  | _ => []

/-- The paths that begin with `before` and match the segments. -/
def matchingPaths (h : Host) (before : Chars) : List (List Glyph) → List Chars
  | [] => []
  | [s] =>
    if isPattern s then (matchingNames h before s).map (before ++ ·)
    else if isThere h (before ++ charsOf s) then [before ++ charsOf s] else []
  | s :: t :: r =>
    if isPattern s then
      (matchingNames h before s).flatMap fun n => matchingPaths h (before ++ n ++ ['/']) (t :: r)
    else matchingPaths h (before ++ charsOf s ++ ['/']) (t :: r)

/-- The fields that one field stands for. -/
def globbed (h : Host) (field : List Glyph) : List Chars :=
  if isPattern field then
    match matchingPaths h [] (splitSlashes field) with
    | [] => [charsOf field]
    | found => found
  else [charsOf field]

end PollWatch.Shell
