import Mathlib
import PollWatch.Proofs.FileTree.Expansion

/-!
# Cycles of links

Followed without a bound, the links of a path come to an end unless they run into a
cycle:

> `exists_chases_iff`: following links from a path ends exactly if no cycle is reached;
> `ends_iff`: so a path leads somewhere exactly if no component of it brings the walk
> to a cycle.

One direction walks along the links, which leave no choice. For the other, the paths that
can be reached over links are the path itself and targets of stored links, so they are
finitely many. Without a cycle among them, each link leads to fewer.
-/

namespace PollWatch.FileTree

variable {t : FileTree}

/-- At `p` a link is stored, and `q` is its target. -/
def Hop (t : FileTree) (p q : Path) : Prop := t.get? p.key = some (.link q)

/-- The links from `p` lead into a cycle. -/
def Circles (t : FileTree) (p : Path) : Prop :=
  ∃ q, Relation.ReflTransGen t.Hop p q ∧ Relation.TransGen t.Hop q q

theorem Hop.unique {p q r : Path} (hq : t.Hop p q) (hr : t.Hop p r) : q = r :=
  Entry.link.inj (Option.some.inj (Eq.trans hq.symm hr))

/-! ## Into a cycle -/

/-- Behind a link that leads into a cycle, the way goes on into the cycle. -/
theorem Circles.of_hop {p q : Path} (h : t.Circles p) (hpq : t.Hop p q) : t.Circles q := by
  obtain ⟨r, hpr, hcycle⟩ := h
  rcases hpr.cases_head with rfl | ⟨q', hpq', hqr⟩
  · -- the link is on the cycle itself
    obtain ⟨q', hpq', hqp⟩ := Relation.TransGen.head'_iff.mp hcycle
    obtain rfl := hpq.unique hpq'
    exact ⟨p, hqp, hcycle⟩
  · obtain rfl := hpq.unique hpq'
    exact ⟨r, hqr, hcycle⟩

theorem Circles.exists_hop {p : Path} (h : t.Circles p) : ∃ q, t.Hop p q := by
  obtain ⟨r, hpr, hcycle⟩ := h
  rcases hpr.cases_head with rfl | ⟨q, hpq, -⟩
  · obtain ⟨q, hpq, -⟩ := Relation.TransGen.head'_iff.mp hcycle
    exact ⟨q, hpq⟩
  · exact ⟨q, hpq⟩

theorem Chases.not_circles {p q : Path} {n : Nat} (h : t.Chases p n q) : ¬ t.Circles p := by
  induction h with
  | stop hp =>
    intro hcircles
    obtain ⟨target, hlink⟩ := hcircles.exists_hop
    exact hp target hlink
  | hop hlink _ ih => exact fun hcircles => ih (hcircles.of_hop hlink)

/-! ## Without a cycle -/

/-- Only finitely many paths are reached over links. -/
theorem finite_reached (t : FileTree) (p : Path) :
    {q | Relation.ReflTransGen t.Hop p q}.Finite := by
  have htargets : {q | ∃ k, t.get? k = some (.link q)}.Finite := by
    have himage : {e | ∃ k, (k, e) ∈ t.entries}.Finite := by
      refine (t.entries.map (·.2)).finite_toSet.subset ?_
      rintro e ⟨k, hk⟩
      exact List.mem_map.mpr ⟨(k, e), hk, rfl⟩
    refine Set.Finite.of_finite_image (f := Entry.link) (himage.subset ?_)
      fun _ _ _ _ h => Entry.link.inj h
    rintro _ ⟨q, ⟨k, hk⟩, rfl⟩
    exact ⟨k, mem_of_get? hk⟩
  refine (htargets.insert p).subset fun q hq => ?_
  rcases hq.cases_tail with rfl | ⟨r, -, hrq⟩
  · exact Set.mem_insert _ _
  · exact Set.mem_insert_of_mem _ ⟨r.key, hrq⟩

theorem exists_chases_of_not_circles {p : Path} (h : ¬ t.Circles p) : ∃ n q, t.Chases p n q := by
  let Reached := {q // Relation.ReflTransGen t.Hop p q}
  have : Finite Reached := t.finite_reached p
  let after : Reached → Reached → Prop := fun a b => Relation.TransGen t.Hop b.1 a.1
  have : IsTrans Reached after := ⟨fun _ _ _ hba hcb => hcb.trans hba⟩
  have : Std.Irrefl after := ⟨fun a ha => h ⟨a.1, a.2, ha⟩⟩
  have hwf : WellFounded after := Finite.wellFounded_of_trans_of_irrefl after
  suffices hall : ∀ a : Reached, ∃ n q, t.Chases a.1 n q from hall ⟨p, .refl⟩
  intro a
  induction a using hwf.induction with
  | _ a ih =>
    by_cases hlink : ∃ target, t.Hop a.1 target
    · obtain ⟨target, hlink⟩ := hlink
      obtain ⟨n, q, hq⟩ := ih ⟨target, a.2.tail hlink⟩ (.single hlink)
      exact ⟨n + 1, q, .hop hlink hq⟩
    · exact ⟨0, a.1, .stop (not_exists.mp hlink)⟩

/-- Following links ends exactly if it does not run into a cycle. -/
theorem exists_chases_iff {p : Path} : (∃ n q, t.Chases p n q) ↔ ¬ t.Circles p :=
  ⟨fun ⟨_, _, h⟩ => h.not_circles, exists_chases_of_not_circles⟩

/-! ## Along a path -/

/-- On the walk from `p` along `k`, some component brings the walk to a link that leads into a
cycle. -/
def WalksIntoCycle (t : FileTree) (k : Key) (p : Path) : Prop :=
  ∃ j c l n q, k = j ++ c :: l ∧ t.Expands j p n q ∧ t.Circles (extend q c)

/-- Looked up from the start, the path enters a cycle of links. -/
def EntersCycle (t : FileTree) (p : Path) : Prop := t.WalksIntoCycle p.key .empty

theorem walksIntoCycle_cons {c : Component} {k : Key} {p q : Path} {n : Nat}
    (h : t.Chases (extend p c) n q) : t.WalksIntoCycle (c :: k) p ↔ t.WalksIntoCycle k q := by
  constructor
  · rintro ⟨j, d, l, m, r, hk, hj, hcircles⟩
    cases hj with
    | nil =>
      obtain ⟨rfl, rfl⟩ := List.cons.inj hk
      exact absurd hcircles h.not_circles
    | @cons _ j _ q' _ a b hchase hrest =>
      obtain ⟨rfl, rfl⟩ := List.cons.inj hk
      obtain ⟨-, rfl⟩ := h.unique hchase
      exact ⟨j, d, l, b, r, rfl, hrest, hcircles⟩
  · rintro ⟨j, d, l, m, r, rfl, hj, hcircles⟩
    exact ⟨c :: j, d, l, n + m, r, rfl, .cons h hj, hcircles⟩

theorem exists_expands_iff {k : Key} {p : Path} :
    (∃ n r, t.Expands k p n r) ↔ ¬ t.WalksIntoCycle k p := by
  induction k generalizing p with
  | nil =>
    refine ⟨fun _ => ?_, fun _ => ⟨0, p, .nil⟩⟩
    rintro ⟨j, c, l, -, -, hk, -⟩
    exact absurd hk (by simp)
  | cons c k ih =>
    by_cases hcircles : t.Circles (extend p c)
    · refine ⟨?_, fun hnot => absurd ⟨[], c, k, 0, p, rfl, .nil, hcircles⟩ hnot⟩
      rintro ⟨n, r, h⟩
      obtain _ | ⟨hchase, -⟩ := h
      exact absurd hcircles hchase.not_circles
    · -- the links after this component end, and the walk goes on from there
      obtain ⟨n, q, hchase⟩ := exists_chases_of_not_circles hcircles
      rw [walksIntoCycle_cons hchase, ← ih]
      constructor
      · rintro ⟨m, r, h⟩
        obtain _ | ⟨hchase', hrest⟩ := h
        obtain ⟨-, rfl⟩ := hchase.unique hchase'
        exact ⟨_, r, hrest⟩
      · rintro ⟨m, r, hrest⟩
        exact ⟨n + m, r, .cons hchase hrest⟩

/-- A path leads somewhere exactly if it enters no cycle of links. -/
theorem ends_iff {p : Path} : t.Ends p ↔ ¬ t.EntersCycle p := exists_expands_iff

end PollWatch.FileTree
