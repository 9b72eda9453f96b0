import PollWatch.Proofs.FileTree.Expansion

/-!
# What the questions of a scan come to

Each question about a path is answered from two facts: the path where the walk
ends, and the entry that is stored there.

> `directory?_eq_some_iff`, `list_eq_ok_iff`, `modified_eq_ok_iff`

say so for the three questions. No answer, apart from the spelling of the
entries listed, depends on how the path was spelled.
-/

namespace PollWatch.FileTree

theorem locate_eq_ok_iff {t : FileTree} {p q : Path} {e : Option Entry} :
    t.locate p = .ok (q, e) ↔ t.resolve? p = some q ∧ t.get? q.key = e := by
  unfold locate
  split
  next r hr =>
    rw [hr]
    constructor
    · intro h
      obtain ⟨rfl, rfl⟩ := Prod.mk.inj (Except.ok.inj h)
      exact ⟨rfl, rfl⟩
    · rintro ⟨h, rfl⟩
      obtain rfl := Option.some.inj h
      rfl
  next hr =>
    rw [hr]
    simp

theorem directory?_eq_some_iff {t : FileTree} {p q : Path} :
    t.directory? p = some q ↔
      t.resolve? p = some q ∧
        ∃ children listable, t.get? q.key = some (.directory children listable) := by
  constructor
  · intro h
    refine ⟨?_, get?_of_directory? h⟩
    unfold directory? at h
    split at h
    next r children listable hloc =>
      obtain rfl := Option.some.inj h
      exact (locate_eq_ok_iff.mp hloc).1
    next => exact absurd h (by simp)
  · rintro ⟨hq, children, listable, he⟩
    have hloc : t.locate p = .ok (q, some (.directory children listable)) :=
      locate_eq_ok_iff.mpr ⟨hq, he⟩
    unfold directory?
    rw [hloc]

theorem isDirectory_eq_false_iff {t : FileTree} {p : Path} :
    t.isDirectory p = false ↔ t.directory? p = none := by
  rw [← directory?_isSome, Option.isSome_eq_false_iff, Option.isNone_iff_eq_none]

theorem list_eq_ok_iff {t : FileTree} {p : Path} {entries : List Path} :
    t.list p = .ok entries ↔
      ∃ q children, t.resolve? p = some q ∧
        t.get? q.key = some (.directory children true) ∧ entries = children.map p.child := by
  constructor
  · intro h
    unfold list at h
    split at h
    next => exact absurd h (by simp)
    next q children hloc =>
      obtain ⟨hq, he⟩ := locate_eq_ok_iff.mp hloc
      exact ⟨q, children, hq, he, (Except.ok.inj h).symm⟩
    next => exact absurd h (by simp)
    next => exact absurd h (by simp)
  · rintro ⟨q, children, hq, he, rfl⟩
    have hloc : t.locate p = .ok (q, some (.directory children true)) :=
      locate_eq_ok_iff.mpr ⟨hq, he⟩
    unfold list
    rw [hloc]

/-- A path that is no directory was modified at a time exactly if it leads to a readable file
of that time. -/
theorem modified_eq_ok_iff {t : FileTree} {p : Path} {i : Instant}
    (hdir : t.isDirectory p = false) :
    t.modified p = .ok i ↔
      ∃ q seconds, t.resolve? p = some q ∧ t.get? q.key = some (.file seconds true) ∧
        i = (seconds * Timestamp.perSecond : Nat) := by
  constructor
  · intro h
    unfold modified at h
    split at h
    next => exact absurd h (by simp)
    next q seconds hloc =>
      obtain ⟨hq, he⟩ := locate_eq_ok_iff.mp hloc
      exact ⟨q, seconds, hq, he, (Except.ok.inj h).symm⟩
    next => exact absurd h (by simp)
    next q children listable hloc =>
      have hsome := directory?_eq_some_iff.mpr
        ⟨(locate_eq_ok_iff.mp hloc).1, children, listable, (locate_eq_ok_iff.mp hloc).2⟩
      rw [isDirectory_eq_false_iff, hsome] at hdir
      exact absurd hdir (by simp)
    next => exact absurd h (by simp)
  · rintro ⟨q, seconds, hq, he, rfl⟩
    have hloc : t.locate p = .ok (q, some (.file seconds true)) := locate_eq_ok_iff.mpr ⟨hq, he⟩
    unfold modified
    rw [hloc]

end PollWatch.FileTree
