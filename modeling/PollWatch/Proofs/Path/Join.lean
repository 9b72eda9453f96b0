import PollWatch.Path.Key

/-!
# Keys of joined paths

A directory is listed by putting one name after the path that was asked for.
Whatever the spelling of that path (empty, absolute, with slashes at its end or
dots inside), the key grows by exactly one component:

> `key_child`: `(p.child s).key = p.key ++ [.name s]` for every ordinary name `s`.

So two spellings of one place stay two spellings of one place below it.
-/

namespace PollWatch

namespace Segment

theorem component?_of_isOrdinary {s : Segment} (h : s.IsOrdinary) :
    s.component? = some (.name s) :=
  component?_eq_name_iff.mpr ⟨h, rfl⟩

/-- A segment that makes a component is neither empty nor a single dot. -/
theorem ne_of_component? {s : Segment} {c : Component} (h : s.component? = some c) :
    s ≠ .empty ∧ s ≠ .dot := by
  unfold component? at h
  split at h
  next => exact absurd h (by simp)
  next hne => exact not_or.mp hne

end Segment

namespace Path

/-- One segment more at the end adds its component, if it makes one. Only the
empty path is left out: there the new segment would not be at the end but at the start. -/
theorem key_snoc {f s : Segment} {r : List Segment} (h : f ≠ .empty ∨ r ≠ []) :
    (⟨f, r ++ [s]⟩ : Path).key = (⟨f, r⟩ : Path).key ++ s.component?.toList := by
  have hsnoc : ∀ l : List Segment, (l ++ [s]).filterMap Segment.component?
      = l.filterMap Segment.component? ++ s.component?.toList := by
    intro l
    rw [List.filterMap_append]
    cases hs : s.component? <;> simp [hs]
  have habs : (⟨f, r ++ [s]⟩ : Path).isAbsolute = (⟨f, r⟩ : Path).isAbsolute := by
    rcases h with hf | hr
    · simp [isAbsolute, hf]
    · cases r with
      | nil => exact absurd rfl hr
      | cons => rfl
  unfold key
  rw [habs]
  split
  next => rw [hsnoc, List.cons_append]
  next =>
    split
    next => rw [hsnoc, List.cons_append]
    next => exact hsnoc (f :: r)

/-- The key of a single segment, which is neither empty nor a dot. -/
theorem key_single {s : Segment} {c : Component} (h : s.component? = some c) :
    (⟨s, []⟩ : Path).key = [c] := by
  obtain ⟨hempty, hdot⟩ := Segment.ne_of_component? h
  unfold key
  rw [if_neg (by simp [isAbsolute]), if_neg hdot]
  show [s].filterMap Segment.component? = [c]
  rw [List.filterMap_cons_some h, List.filterMap_nil]

theorem empty_join (s : Segment) : empty.join ⟨s, []⟩ = ⟨s, []⟩ := by
  unfold join
  rw [if_neg (by simp [isAbsolute])]
  rfl

/-- Looking up a single segment in a path adds its component to the key, if it makes one. In the
empty path the segment would stand at the start. -/
theorem key_join_segment {p : Path} (hp : p ≠ .empty) (s : Segment) :
    (p.join ⟨s, []⟩).key = p.key ++ s.component?.toList := by
  obtain ⟨f, r⟩ := p
  unfold join
  rw [if_neg (by simp [isAbsolute])]
  rcases List.eq_nil_or_concat r with rfl | ⟨r', l, rfl⟩
  · -- a single segment, which is not empty
    have hf : f ≠ .empty := by
      rintro rfl
      exact hp rfl
    rw [if_neg (by simpa [segments] using hf)]
    show (⟨f, [] ++ [s]⟩ : Path).key = _
    rw [key_snoc (Or.inl hf)]
  · rw [List.concat_eq_append]
    have hlast : (⟨f, r' ++ [l]⟩ : Path).segments = (f :: r') ++ [l] := rfl
    rw [hlast, List.getLast?_concat, List.dropLast_concat]
    by_cases hl : l = .empty
    · -- a slash at the end: the empty segment after it makes no component
      subst hl
      rw [if_pos rfl]
      show (⟨f, r' ++ [s]⟩ : Path).key = _
      by_cases hr : f ≠ .empty ∨ r' ≠ []
      · rw [key_snoc hr, key_snoc hr]
        simp [show Segment.empty.component? = none by decide]
      · rw [not_or, Classical.not_not, Classical.not_not] at hr
        obtain ⟨rfl, rfl⟩ := hr
        show (Component.root :: [s].filterMap Segment.component?) = _
        cases hs : s.component? with
        | none => rw [List.filterMap_cons_none hs]; rfl
        | some c => rw [List.filterMap_cons_some hs]; rfl
    · rw [if_neg (by simpa using hl)]
      show (⟨f, (r' ++ [l]) ++ [s]⟩ : Path).key = _
      rw [key_snoc (Or.inr (by simp))]

/-- Looking up a single segment in a path adds its component to the key. -/
theorem key_join_single {s : Segment} {c : Component} (p : Path) (h : s.component? = some c) :
    (p.join ⟨s, []⟩).key = p.key ++ [c] := by
  by_cases hp : p = .empty
  · -- the segment takes the place of the empty one
    subst hp
    rw [empty_join, key_single h]
    rfl
  · rw [key_join_segment hp, h]
    rfl

/-- An entry of a directory is named by one component more. -/
theorem key_child {s : Segment} (p : Path) (h : s.IsOrdinary) :
    (p.child s).key = p.key ++ [.name s] :=
  key_join_single p (Segment.component?_of_isOrdinary h)

/-- The place of an entry lies at or below that of the directory, whatever its name. -/
theorem key_prefix_child (p : Path) (s : Segment) : p.key <+: (p.child s).key := by
  by_cases hp : p = .empty
  · subst hp
    exact List.nil_prefix
  · exact ⟨s.component?.toList, (key_join_segment hp s).symm⟩

/-- Only the empty path has no components. -/
theorem key_ne_nil {p : Path} (h : p ≠ .empty) : p.key ≠ [] := by
  obtain ⟨first, rest⟩ := p
  unfold key
  split
  next => exact List.cons_ne_nil _ _
  next habs =>
    split
    next => exact List.cons_ne_nil _ _
    next hdot =>
      -- an empty first segment would stand alone, or begin an absolute path
      have hempty : first ≠ .empty := by
        rintro rfl
        cases rest with
        | nil => exact h rfl
        | cons => exact habs rfl
      have hsome : first.component?.isSome := by
        unfold Segment.component?
        rw [if_neg (not_or.mpr ⟨hempty, hdot⟩)]
        split <;> rfl
      obtain ⟨c, hc⟩ := Option.isSome_iff_exists.mp hsome
      show (first :: rest).filterMap Segment.component? ≠ []
      rw [List.filterMap_cons_some hc]
      exact List.cons_ne_nil _ _

/-- Every name in the key of a path is ordinary. -/
theorem isOrdinary_of_mem_key {p : Path} {s : Segment} (h : Component.name s ∈ p.key) :
    s.IsOrdinary := by
  have hmap : ∀ l : List Segment, Component.name s ∈ l.filterMap Segment.component? →
      s.IsOrdinary := by
    intro l hl
    obtain ⟨t, -, ht⟩ := List.mem_filterMap.mp hl
    obtain ⟨hord, rfl⟩ := Segment.component?_eq_name_iff.mp ht
    exact hord
  unfold key at h
  split at h
  next => exact hmap _ (by simpa using h)
  next =>
    split at h
    next => exact hmap _ (by simpa using h)
    next => exact hmap _ h

end Path

end PollWatch
