import PollWatch.Host.Change
/-!
# The difference between two hosts

The changes that lead from one state of a host to another, in an order in which each can be made:
what is gone goes first, the deepest names before the directories that held them, and then comes
what is new, a directory before what stands in it.

Main statement: `difference_self`: a host in which no place is stored twice differs in nothing
from itself.
-/

namespace PollWatch

/-- Whether two nodes can stand for each other without one being removed. -/
def Node.isAlike : Node → Node → Bool
  | .file _ _ _, .file _ _ _ => true
  | .directory _, .directory _ => true
  | .link t, .link u => t = u
  | .device d, .device e => d = e
  | _, _ => false

theorem Node.isAlike_self (n : Node) : n.isAlike n = true := by
  cases n <;> simp [isAlike]

/-- The change that puts a node where there is none. Devices are never made. -/
def Node.making? (p : Path) : Node → Option Host.Edit
  | .file content t _ => some (.write p content t)
  | .directory _ => some (.makeDirectories p)
  | .link target => some (.makeLink p target)
  | .device _ => none

/-- The change that makes `new` out of a node that is like it; none if they are the same. The
times of directories are left alone. -/
def Node.changing? (p : Path) : Node → Node → Option Host.Edit
  | .file b s _, .file c t _ =>
    if b = c then (if s = t then none else some (.setTime p t)) else some (.write p c t)
  | _, _ => none

theorem Node.changing?_self (p : Path) (n : Node) : n.changing? p n = none := by
  cases n <;> simp [changing?]

namespace Host

/-- What stands at a place in a host and is like the node `n`. -/
def getLike? (h : Host) (p : Place) (n : Node) : Option Node := (h.get? p).filter n.isAlike

/-- The changes that lead from `old` to `new`. -/
def difference (old new : Host) : List Edit :=
  (old.nodes.reverse.filterMap fun e =>
    if (new.getLike? e.1 e.2).isNone then some (.removeAll (pathOf e.1)) else none) ++
  new.nodes.filterMap fun e =>
    match old.getLike? e.1 e.2 with
    | none => e.2.making? (pathOf e.1)
    | some n => n.changing? (pathOf e.1) e.2

theorem getLike?_eq_some {h : Host} {p : Place} {n : Node} (hp : h.get? p = some n) :
    h.getLike? p n = some n := by
  simp [getLike?, hp, Node.isAlike_self]

theorem difference_self {h : Host} (hn : ∀ e ∈ h.nodes, h.get? e.1 = some e.2) :
    h.difference h = [] := by
  simp only [difference, List.append_eq_nil_iff, List.filterMap_eq_nil_iff, List.mem_reverse]
  constructor
  · intro e he
    simp [getLike?_eq_some (hn e he)]
  · intro e he
    simp [getLike?_eq_some (hn e he), Node.changing?_self]

end Host

end PollWatch
