import PollWatch.Path.Basic
/-!
# What a path names

Two spellings name the same place when they have the same components: empty segments count for
nothing, and so does `.`, except at the very start of a relative path. A `..` is kept, because
what it names depends on links.

The list of components is the *key* of a path. Entries of a file tree and visited directories are
told apart by keys.
-/

namespace PollWatch

/-- One component of a path. -/
inductive Component where
  /-- The leading slash. -/
  | root
  /-- A `.` at the start of a relative path. -/
  | here
  /-- A `..`. -/
  | up
  /-- An ordinary name. -/
  | name (s : Segment)
deriving DecidableEq

/-- The components of a path, which decide what it names. -/
abbrev Key := List Component

/-- The component that a segment makes after the start of a path. -/
def Segment.component? (s : Segment) : Option Component :=
  if s = .empty ∨ s = .dot then none
  else if s = .dots then some .up
  else some (.name s)

/-- A segment that is an ordinary name: not empty, not `.` and not `..`. -/
def Segment.IsOrdinary (s : Segment) : Prop := s ≠ .empty ∧ s ≠ .dot ∧ s ≠ .dots

instance (s : Segment) : Decidable s.IsOrdinary :=
  inferInstanceAs (Decidable (s ≠ .empty ∧ s ≠ .dot ∧ s ≠ .dots))

theorem Segment.component?_eq_name_iff {s t : Segment} :
    s.component? = some (.name t) ↔ s.IsOrdinary ∧ s = t := by
  unfold component? IsOrdinary
  grind

namespace Path

/-- The components of a path. -/
def key (p : Path) : Key :=
  if p.isAbsolute then .root :: p.rest.filterMap Segment.component?
  else if p.first = .dot then .here :: p.rest.filterMap Segment.component?
  else p.segments.filterMap Segment.component?

/-- Two paths that name the same place. -/
def Equiv (p q : Path) : Prop := p.key = q.key

instance (p q : Path) : Decidable (p.Equiv q) := inferInstanceAs (Decidable (p.key = q.key))

/-- The path with this single component. -/
def ofComponent : Component → Path
  | .root => root
  | .here => dot
  | .up => ⟨.dots, []⟩
  | .name s => ⟨s, []⟩

end Path

namespace Key

/-- The directory that an entry is listed in: its components without the last, and `.` where
nothing is left. -/
def parent (k : Key) : Key := if k.dropLast = [] then [.here] else k.dropLast

/-- The ordinary name at the end of a key. -/
def lastName? (k : Key) : Option Segment :=
  match k.getLast? with
  | some (.name s) => some s
  | _ => none

end Key

end PollWatch
