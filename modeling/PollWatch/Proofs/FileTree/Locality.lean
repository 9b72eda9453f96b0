import PollWatch.Proofs.FileTree.Applied

/-!
# What a change can reach

A change names one path. Besides the entry there it may make and extend
directories above it, and nothing else:

> `keptBut_of_apply`: under any other key there is afterwards what was there before,
> or, above the path, a directory.

Above a path are the beginnings of its key, and `.`, which lists what has no
directory in front of it.
-/

namespace PollWatch

namespace Key

/-- The place `j` is above `k`: it is `.` or a beginning of `k`. -/
def IsAbove (j k : Key) : Prop := j = [.here] ∨ j <+: k

theorem isAbove_parent (k : Key) : k.parent.IsAbove k := by
  unfold parent
  split
  next => exact Or.inl rfl
  next => exact Or.inr (List.dropLast_prefix k)

theorem IsAbove.of_parent {j k : Key} (h : j.IsAbove k.parent) : j.IsAbove k := by
  rcases h with h | h
  · exact Or.inl h
  · unfold parent at h
    split at h
    next =>
      rcases List.prefix_cons_iff.mp h with rfl | ⟨l, rfl, hl⟩
      · exact Or.inr List.nil_prefix
      · rw [List.prefix_nil.mp hl]
        exact Or.inl rfl
    next => exact Or.inr (h.trans (List.dropLast_prefix k))

end Key

namespace FileTree

/-- Under `j` there is the entry that there was, or `j` is above `k` and now a directory. -/
def KeptBut (t u : FileTree) (k j : Key) : Prop :=
  u.get? j = t.get? j ∨
    (j.IsAbove k ∧ ∃ children listable, u.get? j = some (.directory children listable))

theorem KeptBut.trans {t u v : FileTree} {k j : Key} (h : t.KeptBut u k j)
    (h' : u.KeptBut v k j) : t.KeptBut v k j := by
  rcases h' with h' | h'
  · rcases h with h | ⟨habove, children, listable, h⟩
    · exact Or.inl (h'.trans h)
    · exact Or.inr ⟨habove, children, listable, h'.trans h⟩
  · exact Or.inr h'

theorem KeptBut.of_parent {t u : FileTree} {k j : Key} (h : t.KeptBut u k.parent j) :
    t.KeptBut u k j := by
  rcases h with h | ⟨habove, hdir⟩
  · exact Or.inl h
  · exact Or.inr ⟨habove.of_parent, hdir⟩

theorem keptBut_set_parent (t : FileTree) (k : Key) (children : List Segment) (listable : Bool)
    (j : Key) : t.KeptBut (t.set k.parent (.directory children listable)) k j := by
  unfold KeptBut
  rw [get?_set]
  by_cases hj : j = k.parent
  · rw [if_pos hj, hj]
    exact Or.inr ⟨Key.isAbove_parent k, children, listable, rfl⟩
  · rw [if_neg hj]
    exact Or.inl rfl

theorem keptBut_enroll (t : FileTree) (k j : Key) : t.KeptBut (t.enroll k) k j := by
  unfold enroll
  split
  next children listable s _ _ =>
    split
    next => exact Or.inl rfl
    next => exact t.keptBut_set_parent k _ listable j
  next => exact Or.inl rfl

theorem keptBut_register (t : FileTree) (k j : Key) : t.KeptBut (t.register k) k j := by
  fun_induction FileTree.register t k with
  | case1 => exact Or.inl rfl
  | case2 t k => exact t.keptBut_enroll k j
  | case3 t k _ _ ih =>
    exact ((t.keptBut_set_parent k [] true j).trans ih.of_parent).trans (keptBut_enroll _ k j)

theorem keptBut_set (t : FileTree) {k j : Key} (e : Entry) (hj : j ≠ k) :
    t.KeptBut (t.set k e) k j :=
  Or.inl (by rw [get?_set, if_neg hj])

theorem keptBut_erase (t : FileTree) {k j : Key} (hj : j ≠ k) : t.KeptBut (t.erase k) k j :=
  Or.inl (by rw [get?_erase, if_neg hj])

/-- Away from the path itself, an insertion makes and extends directories above it. -/
theorem keptBut_insert (t : FileTree) (p : Path) (e : Entry) {j : Key} (hj : j ≠ p.key) :
    t.KeptBut (t.insert p e) p.key j :=
  (t.keptBut_set e hj).trans (keptBut_register _ p.key j)

/-- **A change is local.** Away from the path that it names, it makes and extends directories
above that path, and leaves all else as it is. -/
theorem keptBut_of_apply {t u : FileTree} {c : Change} (h : t.apply c = .ok u) {j : Key}
    (hj : j ≠ c.path.key) : t.KeptBut u c.path.key j := by
  cases applied_of_apply h with
  | kept => exact Or.inl rfl
  | addFile p => exact t.keptBut_insert p _ hj
  | @addDirectory p => exact t.keptBut_insert p _ hj
  | addLink p => exact t.keptBut_insert p _ hj
  | rewritten => exact t.keptBut_set _ hj
  | vanish p => exact t.keptBut_erase hj
  | @unlisted p => exact (t.keptBut_erase hj).trans (keptBut_set_parent _ p.key _ _ j)
  | remove => exact t.keptBut_erase hj

end FileTree

end PollWatch
