import PollWatch.Bytes
/-!
# Paths as they are spelled

A path is the sequence of its segments, the byte strings between the slashes: `a//b/` has the
four segments `a`, the empty one, `b` and the empty one. Every byte string is the spelling of
exactly one path, so nothing is normalised here.

Main statements: `ofBytes_toBytes` and `toBytes_ofBytes`: the segments and the spelling determine
each other.
-/

namespace PollWatch

/-- What stands between two slashes of a path. -/
structure Segment where
  bytes : Bytes
  slash_notMem : 47 ∉ bytes := by decide
deriving DecidableEq

namespace Segment

/-- Nothing between two slashes. -/
def empty : Segment := ⟨[], by simp⟩

/-- The segment `.`. -/
def dot : Segment := ⟨[46], by decide⟩

/-- The segment `..`. -/
def dots : Segment := ⟨[46, 46], by decide⟩

/-- One byte more in front. -/
def cons (b : UInt8) (s : Segment) (h : 47 ≠ b) : Segment :=
  ⟨b :: s.bytes, by simp [h, s.slash_notMem]⟩

theorem ext_bytes {s t : Segment} (h : s.bytes = t.bytes) : s = t := by
  cases s
  cases t
  cases h
  rfl

end Segment

/-- A path: its segments, of which there is at least one. -/
structure Path where
  first : Segment
  rest : List Segment
deriving DecidableEq

namespace Path

/-- The path with this spelling. -/
def ofBytes : Bytes → Path
  | [] => ⟨.empty, []⟩
  | b :: bs =>
    if h : 47 = b then ⟨.empty, (ofBytes bs).first :: (ofBytes bs).rest⟩
    else ⟨.cons b (ofBytes bs).first h, (ofBytes bs).rest⟩

/-- The path with the spelling that this text has. -/
def ofString (s : String) : Path := ofBytes (Bytes.ofString s)

/-- The spelling of a list of segments that follows something: a slash before each. -/
def spellAll (l : List Segment) : Bytes := l.flatMap fun s => 47 :: s.bytes

/-- The spelling of a path. -/
def toBytes (p : Path) : Bytes := p.first.bytes ++ spellAll p.rest

theorem toBytes_ofBytes (b : Bytes) : (ofBytes b).toBytes = b := by
  induction b with
  | nil => rfl
  | cons c cs ih =>
    unfold ofBytes
    split
    · next h =>
      subst h
      simpa [toBytes, spellAll, Segment.empty] using ih
    · simpa [toBytes, Segment.cons] using ih

theorem ofBytes_segment (s : List UInt8) (h : 47 ∉ s) (t : Bytes) :
    ofBytes (s ++ t) = ⟨⟨s ++ (ofBytes t).first.bytes, by simp [h, (ofBytes t).first.slash_notMem]⟩,
      (ofBytes t).rest⟩ := by
  induction s with
  | nil => rfl
  | cons c cs ih =>
    have hc : 47 ≠ c := fun e => h (by simp [e])
    have hcs : 47 ∉ cs := fun e => h (by simp [e])
    simp [ofBytes, hc, ih hcs, Segment.cons]

theorem ofBytes_toBytes (p : Path) : ofBytes p.toBytes = p := by
  obtain ⟨f, r⟩ := p
  induction r generalizing f with
  | nil =>
    have := ofBytes_segment f.bytes f.slash_notMem []
    simpa [toBytes, spellAll, ofBytes, Segment.empty] using this
  | cons s ss ih =>
    have hs : toBytes ⟨f, s :: ss⟩ = f.bytes ++ 47 :: toBytes ⟨s, ss⟩ := by
      simp [toBytes, spellAll]
    rw [hs, ofBytes_segment f.bytes f.slash_notMem]
    simp [ofBytes, ih, Segment.empty]

/-- All segments, the first included. -/
def segments (p : Path) : List Segment := p.first :: p.rest

/-- The path of a list of segments; the empty path for none. -/
def ofSegments : List Segment → Path
  | [] => ⟨.empty, []⟩
  | s :: ss => ⟨s, ss⟩

/-- The empty path. -/
def empty : Path := ⟨.empty, []⟩

/-- The path `.`. -/
def dot : Path := ⟨.dot, []⟩

/-- The path `/`. -/
def root : Path := ⟨.empty, [.empty]⟩

/-- A path that starts at the root: its spelling begins with a slash. -/
def isAbsolute (p : Path) : Bool := p.first = .empty && !p.rest.isEmpty

/-- The path `q` looked up in `p`. An absolute `q` stands alone; otherwise a slash is put between
the two unless `p` is empty or already ends in one. -/
def join (p q : Path) : Path :=
  if q.isAbsolute then q
  else if p.segments.getLast? = some .empty then ofSegments (p.segments.dropLast ++ q.segments)
  else ofSegments (p.segments ++ q.segments)

/-- The entry `s` of the directory `p`. -/
def child (p : Path) (s : Segment) : Path := p.join ⟨s, []⟩

end Path

end PollWatch
