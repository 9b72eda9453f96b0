import PollWatch.FileTree.Basic

/-!
# What a change does to a tree

The seven changes come down to four things that are done to the entries: one is
inserted, one is rewritten in its place, one is erased, or the directory above an
erased one lists it no more. `applied_of_apply` says which of them a change does, so
that what changes keep is proved by a look at four operations on a tree.
-/

namespace PollWatch

/-- The second entry can come to stand in the place of the first without an insertion: it differs
in times and permissions only. -/
inductive Entry.Rewritten : Entry → Entry → Prop
  | file {m n : Nat} {a b : Bool} : Rewritten (.file m a) (.file n b)
  | directory {children : List Segment} {a b : Bool} :
      Rewritten (.directory children a) (.directory children b)

namespace FileTree

/-- The path that a change names. -/
def Change.path : Change → Path
  | .addFile p _ => p
  | .addDirectory p => p
  | .addLink p _ => p
  | .setModified p _ => p
  | .deny p => p
  | .vanish p => p
  | .remove p => p

/-- The change is one of those that leave the entries where they are. -/
def Change.Rewrites : Change → Prop
  | .setModified _ _ => True
  | .deny _ => True
  | _ => False

/-- The tree after a change that can be made. -/
inductive Applied (t : FileTree) : Change → FileTree → Prop
  | kept (c : Change) : Applied t c t
  | addFile (p : Path) (seconds : Nat) :
      Applied t (.addFile p seconds) (t.insert p (.file seconds true))
  | addDirectory {p : Path} :
      t.get? p.key = none → Applied t (.addDirectory p) (t.insert p (.directory [] true))
  | addLink (p target : Path) : Applied t (.addLink p target) (t.insert p (.link target))
  | rewritten {c : Change} {e e' : Entry} :
      c.Rewrites → t.get? c.path.key = some e → e.Rewritten e' →
        Applied t c (t.set c.path.key e')
  | vanish (p : Path) : Applied t (.vanish p) (t.erase p.key)
  | unlisted {p : Path} {children : List Segment} {listable : Bool} {s : Segment} :
      (t.erase p.key).get? p.key.parent = some (.directory children listable) →
      listedName? p.key = some s →
      Applied t (.remove p)
        ((t.erase p.key).set p.key.parent (.directory (children.filter (· ≠ s)) listable))
  | remove {p : Path} :
      (∀ children listable s,
        (t.erase p.key).get? p.key.parent = some (.directory children listable) →
          listedName? p.key ≠ some s) →
      Applied t (.remove p) (t.erase p.key)

theorem addFile_eq_ok_iff {t u : FileTree} {p : Path} {seconds : Nat} :
    t.addFile p seconds = .ok u ↔ seconds ≤ maxSeconds ∧ u = t.insert p (.file seconds true) := by
  unfold addFile
  split
  next hlt =>
    refine ⟨fun h => absurd h (by simp), fun h => ?_⟩
    exact absurd hlt (Nat.not_lt.mpr h.1)
  next hle =>
    rw [Except.ok.injEq]
    exact ⟨fun h => ⟨Nat.not_lt.mp hle, h.symm⟩, fun h => h.2.symm⟩

theorem applied_setModified {t u : FileTree} {p : Path} {seconds : Nat}
    (h : t.setModified p seconds = .ok u) : t.Applied (.setModified p seconds) u := by
  unfold setModified at h
  split at h
  next hget =>
    split at h
    next => exact absurd h (by simp)
    next =>
      obtain rfl := Except.ok.inj h
      exact .rewritten trivial hget .file
  next =>
    obtain rfl := Except.ok.inj h
    exact .kept _

theorem applied_deny (t : FileTree) (p : Path) : t.Applied (.deny p) (t.deny p) := by
  unfold deny
  split
  next hget => exact .rewritten trivial hget .file
  next hget => exact .rewritten trivial hget .directory
  next => exact .kept _

theorem applied_remove (t : FileTree) (p : Path) : t.Applied (.remove p) (t.remove p) := by
  unfold remove
  dsimp only
  split
  next hget hs => exact .unlisted hget hs
  next hnot => exact .remove fun children listable s hget hs => hnot children listable s hget hs

/-- **What a change does**, if it can be made. -/
theorem applied_of_apply {t u : FileTree} {c : Change} (h : t.apply c = .ok u) :
    t.Applied c u := by
  cases c with
  | addFile p seconds =>
    obtain ⟨-, rfl⟩ := addFile_eq_ok_iff.mp h
    exact .addFile p seconds
  | addDirectory p =>
    obtain rfl := Except.ok.inj h
    unfold FileTree.addDirectory
    split
    next => exact .kept _
    next hnone => exact .addDirectory (Option.not_isSome_iff_eq_none.mp hnone)
  | addLink p target =>
    obtain rfl := Except.ok.inj h
    exact .addLink p target
  | setModified p seconds => exact applied_setModified h
  | deny p =>
    obtain rfl := Except.ok.inj h
    exact t.applied_deny p
  | vanish p =>
    obtain rfl := Except.ok.inj h
    exact .vanish p
  | remove p =>
    obtain rfl := Except.ok.inj h
    exact t.applied_remove p

end FileTree

end PollWatch
