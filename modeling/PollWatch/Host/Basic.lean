import PollWatch.Timestamp
import PollWatch.Path.Basic
/-!
# A host

A host holds a tree of files, directories, links and devices, has a working directory, and a
clock. A node is stored under its place, the names on the way from the root; nodes keep the order
in which they were made, and that is the order in which a directory lists them.
-/

namespace PollWatch

/-- The names on the way from the root. -/
abbrev Place := List Segment

/-- Devices that commands write to. -/
inductive Device where
  /-- Swallows everything and holds nothing. -/
  | null
  /-- Takes nothing. -/
  | full
deriving DecidableEq

/-- What stands at a place. -/
inductive Node where
  | file (content : Bytes) (modified : Instant) (executable : Bool)
  | directory (modified : Instant)
  | link (target : Path)
  | device (d : Device)

/-- The state of a host. -/
structure Host where
  nodes : List (Place × Node)
  /-- The working directory. -/
  here : Place := []
  /-- The time of the next change. -/
  clock : Instant := 0

namespace Host

/-- The node at a place. -/
def get? (h : Host) (p : Place) : Option Node := h.nodes.lookup p

/-- Put a node at a place. One that stands there already keeps its turn in listings. -/
def set (h : Host) (p : Place) (n : Node) : Host :=
  if (h.get? p).isSome then
    { h with nodes := h.nodes.map fun e => if e.1 = p then (p, n) else e }
  else { h with nodes := h.nodes ++ [(p, n)] }

/-- Take away a place and all below it. -/
def erase (h : Host) (p : Place) : Host :=
  { h with nodes := h.nodes.filter fun e => !p.isPrefixOf e.1 }

/-- The names in a directory, in the order in which they were made. -/
def names (h : Host) (p : Place) : List Segment :=
  h.nodes.filterMap fun e => if e.1.dropLast = p then e.1.getLast? else none

/-- The time of a change; the clock moves on by a millisecond. -/
def tick (h : Host) : Instant × Host := (h.clock, { h with clock := h.clock + 1000000 })

/-- The path from the root to a place. -/
def pathOf : Place → Path
  | [] => .root
  | s :: ss => ⟨.empty, s :: ss⟩

/-- A host with nothing but its devices and an empty working directory at `here`, at the time
`clock`. -/
def new (here : Place) (clock : Instant) : Host :=
  let dev : Segment := ⟨[100, 101, 118], by decide⟩
  { nodes := ([], .directory clock) :: ([dev], .directory clock)
      :: ([dev, ⟨[110, 117, 108, 108], by decide⟩], .device .null)
      :: ([dev, ⟨[102, 117, 108, 108], by decide⟩], .device .full)
      :: (List.range here.length).map fun n => (here.take (n + 1), .directory clock)
    here := here
    clock := clock }

end Host

end PollWatch
