import PollWatch.Path.Key
/-!
# A file tree in memory

The entries of a tree are files, directories and links, each stored under the key of its path. A
directory lists the names of its entries in the order in which they came; an entry that is added
is listed by its parent, and parents that do not exist are created. Entries at the top belong to
the directory `.`, which a new tree holds already.

Listing and storing are separate facts: an entry may vanish and stay listed.
-/

namespace PollWatch

/-- What is stored under a key. -/
inductive Entry where
  /-- A file: whole seconds since the epoch, and whether it may be read. -/
  | file (seconds : Nat) (readable : Bool)
  /-- A directory: the names it lists, and whether it may be listed. -/
  | directory (children : List Segment) (listable : Bool)
  /-- A link, which stands for its whole target. -/
  | link (target : Path)
deriving DecidableEq

/-- Entries by key; no key occurs twice. -/
structure FileTree where
  entries : List (Key × Entry)

/-- A modification time that no system time can hold. -/
structure TimeOverflow where
  seconds : Nat

namespace TimeOverflow

/-- The text of this fault. -/
def message (_ : TimeOverflow) : String :=
  "overflow when adding duration to \x60SystemTime\x60"

end TimeOverflow

namespace FileTree

/-- The greatest number of seconds that a system time can hold. -/
def maxSeconds : Nat := 9223372036854775807

/-- The tree of a single directory, the empty `.`. -/
def new : FileTree := ⟨[([.here], .directory [] true)]⟩

/-- The entry under a key. -/
def get? (t : FileTree) (k : Key) : Option Entry := t.entries.lookup k

/-- The tree with nothing under `k`. -/
def erase (t : FileTree) (k : Key) : FileTree := ⟨t.entries.filter fun e => e.1 ≠ k⟩

/-- The tree with `e` under `k`. -/
def set (t : FileTree) (k : Key) (e : Entry) : FileTree := ⟨(k, e) :: (t.erase k).entries⟩

theorem get?_erase (t : FileTree) (k j : Key) :
    (t.erase k).get? j = if j = k then none else t.get? j := by
  obtain ⟨l⟩ := t
  simp only [get?, erase]
  induction l with
  | nil => simp
  | cons x xs ih =>
    obtain ⟨i, e⟩ := x
    by_cases hj : j = i
    · subst hj
      by_cases h : j = k
      · simpa [h] using ih
      · simp [h]
    · have hb : (j == i) = false := beq_eq_false_iff_ne.2 hj
      by_cases h : i = k
      · rw [h] at hb hj
        simpa [h, List.lookup_cons, hb, hj] using ih
      · simpa [h, List.lookup_cons, hb] using ih

theorem get?_set (t : FileTree) (k j : Key) (e : Entry) :
    (t.set k e).get? j = if j = k then some e else t.get? j := by
  by_cases h : j = k
  · simp [set, get?, h]
  · have hb : (j == k) = false := beq_eq_false_iff_ne.2 h
    have he := get?_erase t k j
    simp only [h, if_false] at he ⊢
    simpa [set, get?, List.lookup_cons, hb] using he

/-- A name that a directory can list: it has to be text. -/
def listedName? (k : Key) : Option Segment :=
  k.lastName?.filter fun s => (Bytes.text? s.bytes).isSome

/-- The entry under `k`, listed by its parent directory if that is a directory. -/
def enroll (t : FileTree) (k : Key) : FileTree :=
  match t.get? k.parent, listedName? k with
  | some (.directory children listable), some s =>
    if s ∈ children then t else t.set k.parent (.directory (children ++ [s]) listable)
  | _, _ => t

/-- The tree in which the parent of `k` exists and lists it, made with all parents that it
takes. The directory `.` has no parent. -/
def register (t : FileTree) (k : Key) : FileTree :=
  if k = [.here] then t
  else
    if (t.get? k.parent).isSome then t.enroll k
    else ((t.set k.parent (.directory [] true)).register k.parent).enroll k
termination_by if k = [.here] then 0 else k.length + 1
decreasing_by
  rename_i hk _
  simp only [hk, if_false]
  unfold Key.parent
  split
  · simp
  · next h =>
    have : k ≠ [] := by
      rintro rfl
      simp at h
    have := List.length_pos_iff.2 this
    split
    · omega
    · simp only [List.length_dropLast]
      omega

/-- Store `e` at `p` in place of what was there. -/
def insert (t : FileTree) (p : Path) (e : Entry) : FileTree := (t.set p.key e).register p.key

/-- Add a file, or put it in place of what was there. -/
def addFile (t : FileTree) (p : Path) (seconds : Nat) : Except TimeOverflow FileTree :=
  if maxSeconds < seconds then .error ⟨seconds⟩ else .ok (t.insert p (.file seconds true))

/-- Add an empty directory, unless there is something already. -/
def addDirectory (t : FileTree) (p : Path) : FileTree :=
  if (t.get? p.key).isSome then t else t.insert p (.directory [] true)

/-- Add a link, or put it in place of what was there. -/
def addLink (t : FileTree) (p target : Path) : FileTree := t.insert p (.link target)

/-- Give a file another modification time. Links are not followed, and anything but a file stays
as it is. -/
def setModified (t : FileTree) (p : Path) (seconds : Nat) : Except TimeOverflow FileTree :=
  match t.get? p.key with
  | some (.file _ readable) =>
    if maxSeconds < seconds then .error ⟨seconds⟩ else .ok (t.set p.key (.file seconds readable))
  | _ => .ok t

/-- Forbid reading a file or listing a directory. -/
def deny (t : FileTree) (p : Path) : FileTree :=
  match t.get? p.key with
  | some (.file seconds _) => t.set p.key (.file seconds false)
  | some (.directory children _) => t.set p.key (.directory children false)
  | _ => t

/-- Delete an entry and leave it listed, as if it went between a listing and the next look. -/
def vanish (t : FileTree) (p : Path) : FileTree := t.erase p.key

/-- Delete an entry, also from the listing of its parent. -/
def remove (t : FileTree) (p : Path) : FileTree :=
  let u := t.erase p.key
  match u.get? p.key.parent, listedName? p.key with
  | some (.directory children listable), some s =>
    u.set p.key.parent (.directory (children.filter (· ≠ s)) listable)
  | _, _ => u

/-- One change of a tree. -/
inductive Change where
  | addFile (p : Path) (seconds : Nat)
  | addDirectory (p : Path)
  | addLink (p target : Path)
  | setModified (p : Path) (seconds : Nat)
  | deny (p : Path)
  | vanish (p : Path)
  | remove (p : Path)

/-- The tree after a change. -/
def apply (t : FileTree) : Change → Except TimeOverflow FileTree
  | .addFile p seconds => t.addFile p seconds
  | .addDirectory p => .ok (t.addDirectory p)
  | .addLink p target => .ok (t.addLink p target)
  | .setModified p seconds => t.setModified p seconds
  | .deny p => .ok (t.deny p)
  | .vanish p => .ok (t.vanish p)
  | .remove p => .ok (t.remove p)

end FileTree

end PollWatch
