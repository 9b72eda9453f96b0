import Mathlib
import PollWatch.Proofs.FileTree.Names
import PollWatch.Proofs.FileTree.Reachable
import PollWatch.Proofs.FileTree.Straight

/-!
# Canonical paths

The canonical path of an entry is the key that the entry is stored under. Looked up in its
turn, it leads to that entry as long as no directory on the way is a link:

> `canonical_idempotent`: then a canonical path is its own canonical path.

A walk ends straight below the place where it took its last link (`LeadsTo.straight`):
below the target of that link, or below the start if it took none. As a target is taken
over whole and not walked along, a link can stand only above the target. So what spoils a
canonical path is a link whose target passes through another link, as in
`not_canonical_idempotent_detour`.
-/

namespace PollWatch.FileTree

variable {t : FileTree}

/-! ## Where a walk ends -/

/-- The place `q` is at `b` or below, and no link stands behind `b` on the way, `q` included. -/
structure StraightBelow (t : FileTree) (b q : Path) : Prop where
  begins : b.key <+: q.key
  plain : ∀ j, b.key <+: j → j <+: q.key → j ≠ b.key → ∀ target, t.get? j ≠ some (.link target)

theorem straightBelow_self (p : Path) : t.StraightBelow p p where
  begins := List.prefix_rfl
  plain _ hpj hjp hne := absurd (hjp.eq_of_length (Nat.le_antisymm hjp.length_le hpj.length_le)) hne

/-- One component more at the start is no link either. -/
theorem StraightBelow.of_concat {p q r : Path} {c : Component} (h : t.StraightBelow q r)
    (hkey : q.key = p.key ++ [c]) (hq : ∀ target, t.get? q.key ≠ some (.link target)) :
    t.StraightBelow p r where
  begins := (hkey ▸ List.prefix_append p.key [c]).trans h.begins
  plain j hpj hjr hne := by
    have hlonger : q.key.length ≤ j.length := by
      have hle := hpj.length_le
      have hlength : j.length ≠ p.key.length := fun heq => hne (hpj.eq_of_length heq.symm).symm
      rw [hkey, List.length_append, List.length_singleton]
      omega
    have hqj : q.key <+: j := List.prefix_of_prefix_length_le h.begins hjr hlonger
    by_cases hj : j = q.key
    · rw [hj]
      exact hq
    · exact h.plain j hqj hjr hj

/-- The place is straight below the target of some link, and that target is no link. -/
def BelowTarget (t : FileTree) (q : Path) : Prop :=
  ∃ a target, t.get? a = some (.link target) ∧ (∀ x, t.get? target.key ≠ some (.link x)) ∧
    t.StraightBelow target q

theorem Chases.eq_or_target {p q : Path} {n : Nat} (h : t.Chases p n q) :
    q = p ∨ ∃ a, t.get? a = some (.link q) := by
  induction h with
  | stop => exact Or.inl rfl
  | hop hlink _ ih =>
    rcases ih with rfl | htarget
    · exact Or.inr ⟨_, hlink⟩
    · exact Or.inr htarget

/-- One component of a walk: it is no link and the walk goes on below it, or the walk goes on
below a target. -/
theorem Chases.straight {p q q' r : Path} {c : Component} {n : Nat} (h : t.Chases q' n q)
    (hkey : q'.key = p.key ++ [c]) (hr : t.StraightBelow q r ∨ t.BelowTarget r) :
    t.StraightBelow p r ∨ t.BelowTarget r := by
  rcases hr with hbelow | htarget
  · rcases h.eq_or_target with rfl | ⟨a, hlink⟩
    · exact Or.inl (hbelow.of_concat hkey h.not_link)
    · exact Or.inr ⟨a, q, hlink, h.not_link, hbelow⟩
  · exact Or.inr htarget

theorem Expands.straight {k : Key} {p r : Path} {n : Nat} (h : t.Expands k p n r)
    (hk : ∀ c ∈ k, ∃ s : Segment, s.component? = some c) :
    t.StraightBelow p r ∨ t.BelowTarget r := by
  induction h with
  | nil => exact Or.inl (straightBelow_self _)
  | @cons c k p q r n m hchase _ ih =>
    obtain ⟨⟨s, hs⟩, htail⟩ := List.forall_mem_cons.mp hk
    exact hchase.straight (key_extend hs p) (ih htail)

/-- A path leads straight from the start, or straight below the target of a link. -/
theorem LeadsTo.straight {p q : Path} {n : Nat} (h : t.LeadsTo p n q) :
    t.Plain q.key ∨ t.BelowTarget q := by
  have hstart : t.StraightBelow .empty q ∨ t.BelowTarget q := by
    unfold LeadsTo at h
    cases hk : p.key with
    | nil =>
      rw [hk] at h
      exact h.straight fun c hc => absurd hc List.not_mem_nil
    | cons c k =>
      rw [hk] at h
      obtain _ | ⟨hchase, hrest⟩ := h
      have htail : ∀ d ∈ k, ∃ s : Segment, s.component? = some d :=
        fun d hd => Path.exists_component?_of_mem_tail (p := p) (by rw [hk]; exact hd)
      exact hchase.straight (key_extend_empty hk) (hrest.straight htail)
  exact hstart.imp_left fun hbelow j hj hjq => hbelow.plain j List.nil_prefix hjq hj

/-! ## The canonical path -/

theorem canonical_eq_ok_iff {p q : Path} :
    t.canonical p = .ok q ↔ ∃ e, t.locate p = .ok (q, some e) := by
  unfold canonical
  split
  next f hf => simp [hf]
  next r e hr => simp [hr]
  next r hr => simp [hr]

/-- No link is stored above the key. -/
def ClearAbove (t : FileTree) (k : Key) : Prop :=
  ∀ j, j.IsAncestor k → ∀ target, t.get? j ≠ some (.link target)

/-- The canonical path `q` of `p` is its own canonical path, in some spelling `q'`, and finds the
entry that `p` finds. -/
structure Returns (t : FileTree) (p q q' : Path) : Prop where
  canonical : t.canonical q = .ok q'
  equiv : q'.Equiv q
  same : ∃ e, t.locate p = .ok (q, some e) ∧ t.locate q = .ok (q', some e)

theorem returns_of_plain {p q : Path} (h : t.canonical p = .ok q) (hq : t.Plain q.key) :
    t.Returns p q (straight q.key) := by
  obtain ⟨e, he⟩ := canonical_eq_ok_iff.mp h
  have hlocate : t.locate q = .ok (straight q.key, some e) := by
    rw [locate_of_plain hq, (locate_eq_ok_iff.mp he).2]
  exact ⟨canonical_eq_ok_iff.mpr ⟨e, hlocate⟩, key_straight q, e, he, hlocate⟩

/-- A link above a canonical path stands above the target of a link, and the path at that target
or below. -/
theorem exists_target_of_ancestor {p q : Path} (h : t.canonical p = .ok q) {j : Key} {x : Path}
    (hj : j.IsAncestor q.key) (hx : t.get? j = some (.link x)) :
    ∃ a target, t.get? a = some (.link target) ∧ target.key <+: q.key ∧
      j.IsAncestor target.key := by
  obtain ⟨e, he⟩ := canonical_eq_ok_iff.mp h
  obtain ⟨n, -, hlead⟩ := resolve?_eq_some_iff.mp (locate_eq_ok_iff.mp he).1
  rcases LeadsTo.straight hlead with hplain | ⟨a, target, hlink, hstop, hbelow⟩
  · exact absurd hx (hplain j hj.ne_nil hj.begins x)
  · refine ⟨a, target, hlink, hbelow.begins, hj.ne_nil, ?_, ?_⟩
    · -- a link behind the target would have been followed
      rcases List.prefix_or_prefix_of_prefix hj.begins hbelow.begins with hjt | htj
      · exact hjt
      · by_cases heq : j = target.key
        · exact heq ▸ List.prefix_rfl
        · exact absurd hx (hbelow.plain j htj hj.begins heq x)
    · rintro rfl
      exact hstop x hx

/-- What a path leads to is no link, unless it is the empty path. -/
theorem LeadsTo.not_link {p q : Path} {n : Nat} (h : t.LeadsTo p n q) (hq : q.key ≠ [])
    (target : Path) : t.get? q.key ≠ some (.link target) := by
  by_cases hp : p.key = []
  · unfold LeadsTo at h
    rw [hp] at h
    cases h
    exact absurd rfl hq
  · exact Expands.not_link h hp target

theorem plain_of_clearAbove {p q : Path} {n : Nat} (h : t.LeadsTo p n q)
    (habove : t.ClearAbove q.key) : t.Plain q.key := by
  intro j hj hjq target
  by_cases heq : j = q.key
  · rw [heq]
    exact h.not_link (heq ▸ hj) target
  · exact habove j ⟨hj, hjq, heq⟩ target

/-- **A canonical path is its own canonical path where no link is stored above it.** It is always
the path of the entry that was found. Looked up itself, it leads to this entry again if nothing above
it is a link. A link above it stands above the target of some link, and the canonical path is at that
target or below; so every canonical path is its own in a tree where no target of a link passes
through a link. -/
theorem canonical_idempotent {p q : Path} (h : t.canonical p = .ok q) :
    (∃ e, t.locate p = .ok (q, some e) ∧ t.get? q.key = some e) ∧
      (t.ClearAbove q.key → ∃ q', t.Returns p q q') ∧
      (∀ j x, j.IsAncestor q.key → t.get? j = some (.link x) →
        ∃ a target, t.get? a = some (.link target) ∧ target.key <+: q.key ∧
          j.IsAncestor target.key) ∧
      ((∀ a target, t.get? a = some (.link target) → t.ClearAbove target.key) →
        ∃ q', t.Returns p q q') := by
  obtain ⟨e, he⟩ := canonical_eq_ok_iff.mp h
  obtain ⟨hresolve, hget⟩ := locate_eq_ok_iff.mp he
  obtain ⟨n, -, hlead⟩ := resolve?_eq_some_iff.mp hresolve
  have hclear : t.ClearAbove q.key → ∃ q', t.Returns p q q' :=
    fun habove => ⟨_, returns_of_plain h (plain_of_clearAbove hlead habove)⟩
  refine ⟨⟨e, he, hget⟩, hclear, fun j x hj hx => exists_target_of_ancestor h hj hx, ?_⟩
  intro htargets
  refine hclear fun j hj x hx => ?_
  obtain ⟨a, target, hlink, -, habove⟩ := exists_target_of_ancestor h hj hx
  exact htargets a target hlink j habove x hx

/-- A file `b/c`, then a link from `b` to `d`, a file `d/c`, and a link from `a` to `b/c`. -/
def detour : FileTree :=
  (((FileTree.new.insert (.ofBytes [98, 47, 99]) (.file 1 true)).addLink (.ofBytes [98])
    (.ofBytes [100])).insert (.ofBytes [100, 47, 99]) (.file 2 true)).addLink (.ofBytes [97])
      (.ofBytes [98, 47, 99])

theorem reachable_detour : detour.Reachable :=
  .change (.addLink _ _) (.change (.addFile (.ofBytes [100, 47, 99]) 2) (.change (.addLink _ _)
    (.change (.addFile (.ofBytes [98, 47, 99]) 1) .new rfl) rfl) rfl) rfl

theorem canonical_detour :
    detour.canonical (.ofBytes [98, 47, 99]) = .ok (.ofBytes [100, 47, 99]) := by cbv

/-- Spelled `b/c`, the file at `d/c` has the canonical path `d/c`, which is its own. -/
theorem canonical_idempotent_detour :
    detour.canonical (.ofBytes [98, 47, 99]) = .ok (.ofBytes [100, 47, 99]) ∧
      detour.ClearAbove (Path.ofBytes [100, 47, 99]).key ∧
      ∃ q', detour.Returns (.ofBytes [98, 47, 99]) (.ofBytes [100, 47, 99]) q' := by
  have hdir : detour.get? [.name ⟨[100], by decide⟩]
      = some (.directory [⟨[99], by decide⟩] true) := by
    cbv
  have hclear : detour.ClearAbove (Path.ofBytes [100, 47, 99]).key := by
    intro j hj target
    -- only the directory `d` is above
    have hd : j <+: [] ++ [.name ⟨[100], by decide⟩] := hj.begins_parent
    rcases List.prefix_concat_iff.mp hd with rfl | hnil
    · rw [List.nil_append, hdir]
      simp
    · exact absurd (List.prefix_nil.mp hnil) hj.ne_nil
  obtain ⟨-, hreturns, -, -⟩ := canonical_idempotent canonical_detour
  exact ⟨canonical_detour, hclear, hreturns hclear⟩

/-- The canonical path of `a` is `b/c`, as the target of the link is taken over whole; but `b/c`
leads over the link `b` to another file. -/
theorem not_canonical_idempotent_detour :
    detour.Reachable ∧ detour.canonical (.ofBytes [97]) = .ok (.ofBytes [98, 47, 99]) ∧
      ¬ ∃ q', detour.canonical (.ofBytes [98, 47, 99]) = .ok q' ∧
        q'.Equiv (.ofBytes [98, 47, 99]) := by
  refine ⟨reachable_detour, by cbv, ?_⟩
  rintro ⟨q', hq', hequiv⟩
  obtain rfl := Except.ok.inj (canonical_detour.symm.trans hq')
  exact absurd hequiv (by decide)

end PollWatch.FileTree
