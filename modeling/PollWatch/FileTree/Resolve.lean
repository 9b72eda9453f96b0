import PollWatch.FileSystem
import PollWatch.FileTree.Basic
/-!
# Following links

A path is looked up component by component. Whenever the path so far names a link, the link's
whole target takes its place, and the walk goes on from there. At most 32 links are followed for
one path.

Main statement: `key_mem_names`: a directory is found under a key that is stored, so a tree
answers a scan out of finitely many names.
-/

namespace PollWatch.FileTree

/-- The greatest number of links that one path may lead through. -/
def maxHops : Nat := 32

/-- Replace `p` by the targets of links until it names none, with at most `hops` of them. The
answer holds how many are left. -/
def chase (t : FileTree) (hops : Nat) (p : Path) : Option (Path × Nat) :=
  match t.get? p.key, hops with
  | some (.link target), hops + 1 => t.chase hops target
  | some (.link _), 0 => none
  | _, hops => some (p, hops)

/-- The path so far with one more component. -/
def extend (p : Path) (c : Component) : Path :=
  match c with
  | .here => if p = .empty then .dot else p
  | c => p.join (.ofComponent c)

/-- Walk on from `p` along the components `k`. -/
def walk (t : FileTree) : Key → Path → Nat → Option (Path × Nat)
  | [], p, hops => some (p, hops)
  | c :: k, p, hops =>
    match t.chase hops (extend p c) with
    | some (q, left) => t.walk k q left
    | none => none

/-- Where a path leads; none if it leads through too many links. -/
def resolve? (t : FileTree) (p : Path) : Option Path :=
  (t.walk p.key .empty maxHops).map (·.1)

/-- The entry at the end of a path, with the path where it is stored. -/
def locate (t : FileTree) (p : Path) : Except Fault (Path × Option Entry) :=
  match t.resolve? p with
  | some q => .ok (q, t.get? q.key)
  | none => .error (.tooManyLinks p)

/-- Whether a path leads to a directory. -/
def isDirectory (t : FileTree) (p : Path) : Bool :=
  match t.locate p with
  | .ok (_, some (.directory _ _)) => true
  | _ => false

/-- The entries of the directory at `p`, as paths below `p`. -/
def list (t : FileTree) (p : Path) : Except Fault (List Path) :=
  match t.locate p with
  | .error f => .error f
  | .ok (_, some (.directory children true)) => .ok (children.map p.child)
  | .ok (_, some (.directory _ false)) => .error (.permissionDenied p)
  | .ok _ => .error (.notADirectory p)

/-- When the file at `p` was modified; a directory counts as never modified. -/
def modified (t : FileTree) (p : Path) : Except Fault Instant :=
  match t.locate p with
  | .error f => .error f
  | .ok (_, some (.file seconds true)) => .ok (seconds * Timestamp.perSecond : Nat)
  | .ok (_, some (.file _ false)) => .error (.permissionDenied p)
  | .ok (_, some (.directory _ _)) => .ok 0
  | .ok _ => .error (.notFound p)

/-- The path under which the entry at the end of `p` is stored. -/
def canonical (t : FileTree) (p : Path) : Except Fault Path :=
  match t.locate p with
  | .error f => .error f
  | .ok (q, some _) => .ok q
  | .ok (_, none) => .error (.notFound p)

/-- The path under which the directory at the end of `p` is stored. -/
def directory? (t : FileTree) (p : Path) : Option Path :=
  match t.locate p with
  | .ok (q, some (.directory _ _)) => some q
  | _ => none

theorem directory?_isSome (t : FileTree) (p : Path) :
    (t.directory? p).isSome = t.isDirectory p := by
  unfold directory? isDirectory
  split <;> simp_all

theorem canonical_of_directory? {t : FileTree} {p q : Path} (h : t.directory? p = some q) :
    t.canonical p = .ok q := by
  unfold directory? at h
  unfold canonical
  split at h <;> simp_all

theorem mem_of_get? {t : FileTree} {k : Key} {e : Entry} (h : t.get? k = some e) :
    (k, e) ∈ t.entries := by
  obtain ⟨l⟩ := t
  induction l with
  | nil => simp [get?] at h
  | cons x xs ih =>
    obtain ⟨j, f⟩ := x
    simp only [get?, List.lookup_cons] at h ih ⊢
    split at h
    · simp_all
    · exact List.mem_cons_of_mem _ (ih h)

theorem get?_of_directory? {t : FileTree} {p q : Path} (h : t.directory? p = some q) :
    ∃ children listable, t.get? q.key = some (.directory children listable) := by
  unfold directory? locate at h
  split at h <;> grind

theorem key_mem_names {t : FileTree} {p q : Path} (h : t.directory? p = some q) :
    q.key ∈ t.entries.map (·.1) := by
  obtain ⟨children, listable, he⟩ := get?_of_directory? h
  exact List.mem_map.2 ⟨_, mem_of_get? he, rfl⟩

/-- A file tree as a scan sees it. -/
def view (t : FileTree) : View where
  directory? := t.directory?
  list := t.list
  modified := t.modified
  names := t.entries.map (·.1)
  key_mem_names _ _ := key_mem_names

end PollWatch.FileTree
