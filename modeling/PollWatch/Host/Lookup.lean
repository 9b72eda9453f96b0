import PollWatch.FileSystem
import PollWatch.Host.Basic
/-!
# Looking up paths on a host

A path is followed name by name from the root or from the working directory. A link in the middle
is replaced by its target; at most forty links are followed for one path. A name or a path that is
too long is refused before anything is looked up.

Main statement: `key_mem_names`: a directory is found at a stored place, so a host answers a scan
out of finitely many names.
-/

namespace PollWatch.Host

/-- The greatest number of links that one path may lead through. -/
def maxHops : Nat := 40

/-- The greatest length of a name. -/
def maxName : Nat := 255

/-- The length from which on a path is refused. -/
def maxPath : Nat := 4096

/-- Follow names from a place. The last name need not exist; if it is a link, `last` says whether
that is followed too. -/
def walk (h : Host) (last : Bool) (hops : Nat) (place : Place) (names : List Segment) :
    Except Errno Place :=
  match names with
  | [] => .ok place
  | s :: rest =>
    match h.get? place with
    | some (.directory _) =>
      if maxName < s.bytes.length then .error .nameTooLong
      else if s = .empty ∨ s = .dot then h.walk last hops place rest
      else if s = .dots then h.walk last hops place.dropLast rest
      else
        match h.get? (place ++ [s]) with
        | some (.link target) =>
          if rest = [] ∧ last = false then .ok (place ++ [s])
          else
            match hops with
            | 0 => .error .tooManyLinks
            | left + 1 =>
              if target.isAbsolute then h.walk last left [] (target.rest ++ rest)
              else h.walk last left place (target.segments ++ rest)
        | some _ => h.walk last hops (place ++ [s]) rest
        | none => if rest = [] then .ok (place ++ [s]) else .error .notFound
    | some _ => .error .notADirectory
    | none => .error .notFound
termination_by (hops, names.length)

/-- The place that a path leads to, whether or not something stands there. -/
def place (h : Host) (last : Bool) (p : Path) : Except Errno Place :=
  if p = .empty then .error .notFound
  else if maxPath ≤ p.toBytes.length then .error .nameTooLong
  else if p.isAbsolute then h.walk last maxHops [] p.rest
  else h.walk last maxHops h.here p.segments

/-- What stands at the end of a path, and where. -/
def find (h : Host) (last : Bool) (p : Path) : Except Errno (Place × Node) :=
  match h.place last p with
  | .error e => .error e
  | .ok q =>
    match h.get? q with
    | some n => .ok (q, n)
    | none => .error .notFound

/-- What stands at the end of a path after all links, for a path that may hold a zero byte. -/
def look (h : Host) (p : Path) : Except Refusal (Place × Node) :=
  if 0 ∈ p.toBytes then .error .zeroByte
  else
    match h.find true p with
    | .ok r => .ok r
    | .error e => .error (.errno e)

/-- Whether a path leads to a directory. -/
def isDirectory (h : Host) (p : Path) : Bool :=
  match h.look p with
  | .ok (_, .directory _) => true
  | _ => false

/-- The entries of the directory at `p`, as paths below `p`. -/
def list (h : Host) (p : Path) : Except Fault (List Path) :=
  match h.look p with
  | .error r => .error (.refused .listing p r)
  | .ok (q, .directory _) => .ok ((h.names q).map p.child)
  | .ok _ => .error (.refused .listing p (.errno .notADirectory))

/-- When the file at `p` was modified. -/
def modified (h : Host) (p : Path) : Except Fault Instant :=
  match h.look p with
  | .error r => .error (.refused .reading p r)
  | .ok (_, .file _ t _) => .ok t
  | .ok (_, .directory t) => .ok t
  | .ok _ => .ok 0

/-- The path from the root to what stands at the end of `p`. -/
def canonical (h : Host) (p : Path) : Except Fault Path :=
  match h.look p with
  | .error r => .error (.refused .naming p r)
  | .ok (q, _) => .ok (pathOf q)

/-- The path from the root to the directory at the end of `p`. -/
def directory? (h : Host) (p : Path) : Option Path :=
  match h.look p with
  | .ok (q, .directory _) => some (pathOf q)
  | _ => none

theorem mem_of_get? {h : Host} {p : Place} {n : Node} (hp : h.get? p = some n) :
    (p, n) ∈ h.nodes := by
  unfold get? at hp
  generalize h.nodes = l at hp ⊢
  induction l with
  | nil => simp at hp
  | cons x xs ih =>
    obtain ⟨q, m⟩ := x
    rw [List.lookup_cons] at hp
    split at hp
    · simp_all
    · exact List.mem_cons_of_mem _ (ih hp)

theorem get?_of_look {h : Host} {p : Path} {q : Place} {n : Node} (hp : h.look p = .ok (q, n)) :
    h.get? q = some n := by
  unfold look find at hp
  grind

theorem key_mem_names {h : Host} {p c : Path} (hp : h.directory? p = some c) :
    c.key ∈ h.nodes.map fun e => (pathOf e.1).key := by
  unfold directory? at hp
  split at hp
  · next q t hq =>
    cases hp
    exact List.mem_map.2 ⟨_, mem_of_get? (get?_of_look hq), rfl⟩
  · cases hp

/-- A host as a scan sees it. -/
def view (h : Host) : View where
  directory? := h.directory?
  list := h.list
  modified := h.modified
  names := h.nodes.map fun e => (pathOf e.1).key
  key_mem_names _ _ := key_mem_names

end PollWatch.Host
