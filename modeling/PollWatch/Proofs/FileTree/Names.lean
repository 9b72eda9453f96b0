import PollWatch.FileTree.Basic
import PollWatch.Proofs.Path.Join

/-!
# Parents and names

The parent of a key is the key without its last component, or `.` if that was the only
one. So a parent and a name do not quite determine the key: `eq_of_listedName?`.

A key is *textual* when it has one or more components and each is an ordinary name
that is text. All that stands above such a key can be listed by what stands above that,
and `.` is not among it.
-/

namespace PollWatch

namespace Key

theorem parent_singleton (c : Component) : Key.parent [c] = [.here] := if_pos rfl

theorem parent_concat {j : Key} (hj : j ≠ []) (c : Component) : Key.parent (j ++ [c]) = j := by
  unfold parent
  rw [List.dropLast_concat, if_neg hj]

theorem lastName?_concat (j : Key) (s : Segment) : Key.lastName? (j ++ [.name s]) = some s := by
  unfold lastName?
  rw [List.getLast?_concat]

theorem exists_concat_of_listedName? {k : Key} {s : Segment}
    (h : FileTree.listedName? k = some s) : ∃ j, k = j ++ [.name s] := by
  have hlast : k.lastName? = some s := (Option.filter_eq_some_iff.mp h).1
  unfold lastName? at hlast
  split at hlast
  next s' hk =>
    obtain rfl := Option.some.inj hlast
    exact List.getLast?_eq_some_iff.mp hk
  next => exact absurd hlast (by simp)

/-- The key whose parent and name are known lies below that parent, unless it is a single name:
those have the parent `.`, which is no beginning of them. -/
theorem eq_of_listedName? {k : Key} {s : Segment} (h : FileTree.listedName? k = some s) :
    k = k.parent ++ [.name s] ∨ (k.parent = [.here] ∧ k = [.name s]) := by
  obtain ⟨j, rfl⟩ := exists_concat_of_listedName? h
  by_cases hj : j = []
  · subst hj
    exact Or.inr ⟨parent_singleton _, rfl⟩
  · rw [parent_concat hj]
    exact Or.inl rfl

end Key

/-- The component is an ordinary name, and it is text. -/
def Component.IsTextual : Component → Prop
  | .name s => s.IsOrdinary ∧ (Bytes.text? s.bytes).isSome
  | _ => False

instance : DecidablePred Component.IsTextual
  | .name s => inferInstanceAs (Decidable (s.IsOrdinary ∧ (Bytes.text? s.bytes).isSome))
  | .root => isFalse id
  | .here => isFalse id
  | .up => isFalse id

namespace Key

/-- One or more ordinary names, each of them text. -/
def Textual (k : Key) : Prop := k ≠ [] ∧ ∀ c ∈ k, c.IsTextual

instance (k : Key) : Decidable k.Textual :=
  inferInstanceAs (Decidable (k ≠ [] ∧ ∀ c ∈ k, c.IsTextual))

theorem Textual.of_begins {j k : Key} (h : k.Textual) (hj : j ≠ []) (hjk : j <+: k) : j.Textual :=
  ⟨hj, fun c hc => h.2 c (hjk.subset hc)⟩

theorem Textual.exists_concat {k : Key} (h : k.Textual) :
    ∃ j s, k = j ++ [.name s] ∧ s.IsOrdinary ∧ (Bytes.text? s.bytes).isSome := by
  obtain ⟨j, c, rfl⟩ := List.eq_nil_or_concat k |>.resolve_left h.1
  rw [List.concat_eq_append] at h ⊢
  have hc := h.2 c (List.mem_append_right _ (List.mem_singleton_self c))
  cases c with
  | name s => exact ⟨j, s, rfl, hc.1, hc.2⟩
  | root => exact absurd hc id
  | here => exact absurd hc id
  | up => exact absurd hc id

theorem Textual.ne_dot {k : Key} (h : k.Textual) : k ≠ [.here] := by
  rintro rfl
  exact h.2 .here (List.mem_singleton_self _)

theorem listedName?_concat (j : Key) {s : Segment} (h : (Bytes.text? s.bytes).isSome) :
    FileTree.listedName? (j ++ [.name s]) = some s := by
  unfold FileTree.listedName?
  rw [lastName?_concat]
  exact Option.filter_eq_some_iff.mpr ⟨rfl, h⟩

theorem Textual.component? {k : Key} (h : k.Textual) :
    ∀ c ∈ k, ∃ s : Segment, s.component? = some c := by
  intro c hc
  have htext := h.2 c hc
  cases c with
  | name s => exact ⟨s, Segment.component?_of_isOrdinary htext.1⟩
  | root => exact absurd htext id
  | here => exact absurd htext id
  | up => exact absurd htext id

/-! ## What stands above a key -/

/-- A directory at `j` would be above an entry at `k`: `j` is a beginning of `k`, but neither `k`
itself nor empty. -/
structure IsAncestor (j k : Key) : Prop where
  ne_nil : j ≠ []
  begins : j <+: k
  ne : j ≠ k

instance (j k : Key) : Decidable (j.IsAncestor k) :=
  decidable_of_iff (j ≠ [] ∧ j <+: k ∧ j ≠ k)
    ⟨fun h => ⟨h.1, h.2.1, h.2.2⟩, fun h => ⟨h.ne_nil, h.begins, h.ne⟩⟩

theorem IsAncestor.length_lt {j k : Key} (h : j.IsAncestor k) : j.length < k.length := by
  have hle := h.begins.length_le
  have hne : j.length ≠ k.length := fun heq => h.ne (h.begins.eq_of_length heq)
  omega

theorem IsAncestor.trans_begins {i j k : Key} (h : i.IsAncestor j) (hjk : j <+: k) :
    i.IsAncestor k where
  ne_nil := h.ne_nil
  begins := h.begins.trans hjk
  ne := by
    rintro rfl
    have hlt := h.length_lt
    have hle := hjk.length_le
    omega

theorem isAncestor_concat {j : Key} (hj : j ≠ []) (c : Component) : j.IsAncestor (j ++ [c]) where
  ne_nil := hj
  begins := List.prefix_append _ _
  ne := by
    intro heq
    have hlength := congrArg List.length heq
    rw [List.length_append, List.length_singleton] at hlength
    omega

/-- The parent of a key is at or below all that is above the key. -/
theorem IsAncestor.begins_parent {j k : Key} (h : j.IsAncestor k) : j <+: k.parent := by
  rcases List.eq_nil_or_concat k with rfl | ⟨l, c, rfl⟩
  · exact absurd (List.prefix_nil.mp h.begins) h.ne_nil
  · rw [List.concat_eq_append] at h ⊢
    have hjl : j <+: l := (List.prefix_concat_iff.mp h.begins).resolve_left h.ne
    have hl : l ≠ [] := by
      rintro rfl
      exact h.ne_nil (List.prefix_nil.mp hjl)
    rw [parent_concat hl]
    exact hjl

/-- Below an ancestor of a key, the key goes on with a name. -/
theorem IsAncestor.exists_next {j k : Key} (h : j.IsAncestor k) (hk : k.Textual) :
    ∃ s, j ++ [.name s] <+: k := by
  obtain ⟨l, rfl⟩ := h.begins
  cases l with
  | nil => exact absurd (List.append_nil j).symm h.ne
  | cons c l =>
    have hc := hk.2 c (List.mem_append_right _ (List.mem_cons_self ..))
    cases c with
    | name s => exact ⟨s, l, List.append_assoc ..⟩
    | root => exact absurd hc id
    | here => exact absurd hc id
    | up => exact absurd hc id

theorem Textual.of_isAncestor {j k : Key} (h : k.Textual) (hjk : j.IsAncestor k) : j.Textual :=
  h.of_begins hjk.ne_nil hjk.begins

end Key

end PollWatch
