import PollWatch.Proofs.FileTree.Expansion
import PollWatch.Proofs.FileTree.Lookup

/-!
# Looking up without links

Where no beginning of a path names a link, the path leads to itself, component by
component:

> `locate_of_plain`: the entry found is the one stored under the path's own key.

The path found is spelled in one way, `straight`, which depends on the key only:
so two trees that store no links along a path find the same path.
-/

namespace PollWatch

/-- Components that stand behind the start of a path come from a segment. -/
theorem Path.exists_component?_of_mem_tail {p : Path} {c : Component} (h : c ∈ p.key.tail) :
    ∃ s : Segment, s.component? = some c := by
  have hmap : ∀ l : List Segment, c ∈ l.filterMap Segment.component? →
      ∃ s : Segment, s.component? = some c := by
    intro l hl
    obtain ⟨s, -, hs⟩ := List.mem_filterMap.mp hl
    exact ⟨s, hs⟩
  unfold Path.key at h
  split at h
  next => exact hmap _ h
  next =>
    split at h
    next => exact hmap _ h
    next => exact hmap _ (List.mem_of_mem_tail h)

/-- The segment of a component that comes from one. -/
theorem Path.ofComponent_of_component? {s : Segment} {c : Component} (h : s.component? = some c) :
    c ≠ .here ∧ Path.ofComponent c = ⟨s, []⟩ := by
  unfold Segment.component? at h
  split at h
  next => exact absurd h (by simp)
  next =>
    split at h
    next hs =>
      obtain rfl := Option.some.inj h
      rw [hs]
      exact ⟨by simp, rfl⟩
    next =>
      obtain rfl := Option.some.inj h
      exact ⟨by simp, rfl⟩

namespace FileTree

theorem key_extend {s : Segment} {c : Component} (h : s.component? = some c) (p : Path) :
    (extend p c).key = p.key ++ [c] := by
  obtain ⟨hne, hc⟩ := Path.ofComponent_of_component? h
  -- only a leading dot is put into a path in another way, and no segment makes one
  have hextend : extend p c = p.join ⟨s, []⟩ := by
    rw [← hc]
    cases c with
    | here => exact absurd rfl hne
    | _ => rfl
  rw [hextend, Path.key_join_single p h]

/-- The start of a path is a component of its own. -/
theorem key_extend_empty {p : Path} {c : Component} {k : Key} (h : p.key = c :: k) :
    (extend .empty c).key = [c] := by
  cases c with
  | root => decide
  | here => decide
  | up => decide
  | name s =>
    have hmem : Component.name s ∈ p.key := by
      rw [h]
      exact List.mem_cons_self ..
    have hord := Path.isOrdinary_of_mem_key hmem
    rw [key_extend (Segment.component?_of_isOrdinary hord)]
    rfl

/-- The path that is spelled out of a key, component by component. -/
def straight (k : Key) : Path := k.foldl extend .empty

/-- Along components that never name a link, the walk goes straight. -/
theorem expands_foldl {t : FileTree} {k : Key} {p : Path}
    (hk : ∀ c ∈ k, ∃ s : Segment, s.component? = some c)
    (hplain : ∀ j, j ≠ [] → j <+: k → ∀ target, t.get? (p.key ++ j) ≠ some (.link target)) :
    t.Expands k p 0 (k.foldl extend p) := by
  induction k generalizing p with
  | nil => exact .nil
  | cons c k ih =>
    obtain ⟨s, hs⟩ := hk c (List.mem_cons_self ..)
    have hkey := key_extend hs p
    have hstop : t.Chases (extend p c) 0 (extend p c) := by
      refine .stop fun target => ?_
      rw [hkey]
      exact hplain [c] (by simp) ⟨k, rfl⟩ target
    refine .cons hstop (ih (fun d hd => hk d (List.mem_cons_of_mem _ hd)) ?_)
    intro j _ hj target
    rw [hkey, List.append_assoc]
    exact hplain (c :: j) (by simp) (List.cons_prefix_cons.mpr ⟨rfl, hj⟩) target

theorem key_foldl_extend {k : Key} (hk : ∀ c ∈ k, ∃ s : Segment, s.component? = some c)
    (p : Path) : (k.foldl extend p).key = p.key ++ k := by
  induction k generalizing p with
  | nil => exact (List.append_nil _).symm
  | cons c k ih =>
    obtain ⟨s, hs⟩ := hk c (List.mem_cons_self ..)
    rw [List.foldl_cons, ih (fun d hd => hk d (List.mem_cons_of_mem _ hd)), key_extend hs,
      List.append_assoc]
    rfl

theorem key_straight (p : Path) : (straight p.key).key = p.key := by
  cases hk : p.key with
  | nil => rfl
  | cons c k =>
    have htail : ∀ d ∈ k, ∃ s : Segment, s.component? = some d :=
      fun d hd => Path.exists_component?_of_mem_tail (p := p) (by rw [hk]; exact hd)
    rw [straight, List.foldl_cons, key_foldl_extend htail, key_extend_empty hk]
    rfl

/-- No beginning of the key names a link. -/
def Plain (t : FileTree) (k : Key) : Prop :=
  ∀ j, j ≠ [] → j <+: k → ∀ target, t.get? j ≠ some (.link target)

theorem leadsTo_straight {t : FileTree} {p : Path} (h : t.Plain p.key) :
    t.LeadsTo p 0 (straight p.key) := by
  unfold LeadsTo straight
  cases hk : p.key with
  | nil => exact .nil
  | cons c k =>
    have hkey := key_extend_empty hk
    -- the start may be a slash or a dot; what is behind it comes from segments
    have htail : ∀ d ∈ k, ∃ s : Segment, s.component? = some d :=
      fun d hd => Path.exists_component?_of_mem_tail (p := p) (by rw [hk]; exact hd)
    have hplain : ∀ j, j ≠ [] → j <+: p.key → ∀ target, t.get? j ≠ some (.link target) := h
    rw [hk] at hplain
    have hstop : t.Chases (extend .empty c) 0 (extend .empty c) := by
      refine .stop fun target => ?_
      rw [hkey]
      exact hplain [c] (by simp) ⟨k, rfl⟩ target
    refine .cons hstop (expands_foldl htail ?_)
    intro j _ hj target
    rw [hkey]
    exact hplain (c :: j) (by simp) (List.cons_prefix_cons.mpr ⟨rfl, hj⟩) target

theorem resolve?_of_plain {t : FileTree} {p : Path} (h : t.Plain p.key) :
    t.resolve? p = some (straight p.key) :=
  resolve?_eq_some_iff.mpr ⟨0, Nat.zero_le _, leadsTo_straight h⟩

/-- A path along which there are no links is found where it says. -/
theorem locate_of_plain {t : FileTree} {p : Path} (h : t.Plain p.key) :
    t.locate p = .ok (straight p.key, t.get? p.key) := by
  rw [locate_eq_ok_iff, key_straight]
  exact ⟨resolve?_of_plain h, rfl⟩

end FileTree

end PollWatch
