import PollWatch.FileTree.Resolve
import PollWatch.Proofs.Path.Join

/-!
# Following links without a bound

`resolve?` gives up after 32 links. Here the same walk is a relation with no
bound, which counts the links that it leads through:

> `LeadsTo t p n q`: looked up component by component, `p` leads to `q` over `n` links.

A path round a cycle of links leads nowhere. The bounded walk is the unbounded
one cut at the limit (`resolve?_eq_some_iff`), and where a path leads below a
directory depends on the place of the directory only, not on the spelling that
was used to get there nor on the links it took (`leadsTo_child_of_key_eq`).
-/

namespace PollWatch.FileTree

/-- Links are followed from `p` until `q`, which names none; there are `n` of them. -/
inductive Chases (t : FileTree) : Path → Nat → Path → Prop
  | stop {p : Path} : (∀ target, t.get? p.key ≠ some (.link target)) → Chases t p 0 p
  | hop {p target q : Path} {n : Nat} :
      t.get? p.key = some (.link target) → Chases t target n q → Chases t p (n + 1) q

/-- From `p` along the components of a key, following links after each, to `q`. -/
inductive Expands (t : FileTree) : Key → Path → Nat → Path → Prop
  | nil {p : Path} : Expands t [] p 0 p
  | cons {c : Component} {k : Key} {p q r : Path} {n m : Nat} :
      Chases t (extend p c) n q → Expands t k q m r → Expands t (c :: k) p (n + m) r

/-- Looked up from the start, `p` leads to `q` over `n` links. -/
def LeadsTo (t : FileTree) (p : Path) (n : Nat) (q : Path) : Prop := t.Expands p.key .empty n q

/-- Following links from `p` comes to an end, however many they are. -/
def Ends (t : FileTree) (p : Path) : Prop := ∃ n q, t.LeadsTo p n q

/-! ## The bound cuts the unbounded walk -/

theorem chase_link {t : FileTree} {p target : Path} (h : t.get? p.key = some (.link target))
    (hops : Nat) : t.chase (hops + 1) p = t.chase hops target := by
  conv => lhs; unfold chase
  rw [h]

theorem chase_link_zero {t : FileTree} {p target : Path}
    (h : t.get? p.key = some (.link target)) : t.chase 0 p = none := by
  unfold chase
  rw [h]

theorem chase_of_ne_link {t : FileTree} {p : Path}
    (h : ∀ target, t.get? p.key ≠ some (.link target)) (hops : Nat) :
    t.chase hops p = some (p, hops) := by
  unfold chase
  split
  next target _ hp => exact absurd hp (h target)
  next target hp => exact absurd hp (h target)
  next => rfl

theorem chase_eq_some_iff {t : FileTree} {hops left : Nat} {p q : Path} :
    t.chase hops p = some (q, left) ↔ ∃ n, t.Chases p n q ∧ n + left = hops := by
  constructor
  · intro h
    induction hops generalizing p with
    | zero =>
      by_cases hp : ∃ target, t.get? p.key = some (.link target)
      · obtain ⟨target, hp⟩ := hp
        rw [chase_link_zero hp] at h
        exact absurd h (by simp)
      · rw [chase_of_ne_link (not_exists.mp hp)] at h
        obtain ⟨rfl, rfl⟩ := Prod.mk.inj (Option.some.inj h)
        exact ⟨0, .stop (not_exists.mp hp), rfl⟩
    | succ hops ih =>
      by_cases hp : ∃ target, t.get? p.key = some (.link target)
      · obtain ⟨target, hp⟩ := hp
        rw [chase_link hp] at h
        obtain ⟨n, hn, hsum⟩ := ih h
        exact ⟨n + 1, .hop hp hn, by omega⟩
      · rw [chase_of_ne_link (not_exists.mp hp)] at h
        obtain ⟨rfl, rfl⟩ := Prod.mk.inj (Option.some.inj h)
        exact ⟨0, .stop (not_exists.mp hp), Nat.zero_add _⟩
  · rintro ⟨n, hn, hsum⟩
    induction hn generalizing hops with
    | stop hp =>
      rw [chase_of_ne_link hp, ← hsum, Nat.zero_add]
    | @hop p target q n hp _ ih =>
      obtain rfl : hops = (n + left) + 1 := by omega
      rw [chase_link hp]
      exact ih rfl

theorem walk_eq_some_iff {t : FileTree} {k : Key} {hops left : Nat} {p r : Path} :
    t.walk k p hops = some (r, left) ↔ ∃ n, t.Expands k p n r ∧ n + left = hops := by
  constructor
  · intro h
    induction k generalizing p hops with
    | nil =>
      obtain ⟨rfl, rfl⟩ := Prod.mk.inj (Option.some.inj h)
      exact ⟨0, .nil, Nat.zero_add _⟩
    | cons c k ih =>
      unfold walk at h
      split at h
      next q mid hchase =>
        -- what this component leaves of the bound is all that the others may use
        obtain ⟨n, hn, hsum⟩ := chase_eq_some_iff.mp hchase
        obtain ⟨m, hm, hsum'⟩ := ih h
        exact ⟨n + m, .cons hn hm, by omega⟩
      next => exact absurd h (by simp)
  · rintro ⟨n, hn, hsum⟩
    induction hn generalizing hops with
    | nil =>
      rw [walk, ← hsum, Nat.zero_add]
    | @cons c k p q r n m hchase _ ih =>
      have hq : t.chase hops (extend p c) = some (q, m + left) :=
        chase_eq_some_iff.mpr ⟨n, hchase, by omega⟩
      rw [walk, hq]
      exact ih rfl

/-- The bounded walk finds exactly what lies within 32 links. -/
theorem resolve?_eq_some_iff {t : FileTree} {p q : Path} :
    t.resolve? p = some q ↔ ∃ n, n ≤ maxHops ∧ t.LeadsTo p n q := by
  unfold resolve? LeadsTo
  rw [Option.map_eq_some_iff]
  constructor
  · rintro ⟨⟨r, left⟩, hr, rfl⟩
    obtain ⟨n, hn, hsum⟩ := walk_eq_some_iff.mp hr
    exact ⟨n, by omega, hn⟩
  · rintro ⟨n, hle, hn⟩
    exact ⟨(q, maxHops - n), walk_eq_some_iff.mpr ⟨n, hn, by omega⟩, rfl⟩

/-! ## Below a directory only its place counts -/

theorem expands_append_iff {t : FileTree} {k l : Key} {p r : Path} {n : Nat} :
    t.Expands (k ++ l) p n r ↔
      ∃ q a b, t.Expands k p a q ∧ t.Expands l q b r ∧ n = a + b := by
  constructor
  · intro h
    induction k generalizing p n with
    | nil => exact ⟨p, 0, n, .nil, h, (Nat.zero_add n).symm⟩
    | cons c k ih =>
      rw [List.cons_append] at h
      obtain _ | ⟨hchase, hrest⟩ := h
      obtain ⟨q, a, b, hk, hl, rfl⟩ := ih hrest
      exact ⟨q, _, b, .cons hchase hk, hl, by omega⟩
  · rintro ⟨q, a, b, hk, hl, rfl⟩
    induction hk with
    | nil => rwa [Nat.zero_add]
    | cons hchase _ ih =>
      rw [Nat.add_assoc]
      exact .cons hchase (ih hl)

theorem expands_single_iff {t : FileTree} {c : Component} {p q : Path} {n : Nat} :
    t.Expands [c] p n q ↔ t.Chases (extend p c) n q := by
  constructor
  · intro h
    obtain _ | ⟨hchase, _ | _⟩ := h
    exact hchase
  · intro h
    exact .cons h .nil

/-- An entry of a directory is looked up where the directory is. -/
theorem leadsTo_child_iff {t : FileTree} {p r : Path} {s : Segment} {n : Nat}
    (hs : s.IsOrdinary) :
    t.LeadsTo (p.child s) n r ↔
      ∃ q a b, t.LeadsTo p a q ∧ t.Chases (q.child s) b r ∧ n = a + b := by
  unfold LeadsTo
  rw [Path.key_child p hs, expands_append_iff]
  simp only [expands_single_iff]
  rfl

/-- What links make of a path depends on its key only. -/
theorem Chases.of_key_eq {t : FileTree} {p p' q : Path} {n : Nat} (h : t.Chases p n q)
    (hkey : p'.key = p.key) : ∃ q', t.Chases p' n q' ∧ q'.key = q.key := by
  cases h with
  | stop hp => exact ⟨p', .stop (by rw [hkey]; exact hp), hkey⟩
  | hop hp hrest => exact ⟨q, .hop (by rw [hkey]; exact hp) hrest, rfl⟩

theorem Chases.unique {t : FileTree} {p q q' : Path} {n m : Nat} (h : t.Chases p n q)
    (h' : t.Chases p m q') : n = m ∧ q = q' := by
  induction h generalizing m with
  | stop hp =>
    cases h' with
    | stop => exact ⟨rfl, rfl⟩
    | hop hlink => exact absurd hlink (hp _)
  | hop hlink _ ih =>
    cases h' with
    | stop hp => exact absurd hlink (hp _)
    | hop hlink' hrest' =>
      obtain rfl := Entry.link.inj (Option.some.inj (hlink.symm.trans hlink'))
      obtain ⟨rfl, rfl⟩ := ih hrest'
      exact ⟨rfl, rfl⟩

theorem Expands.unique {t : FileTree} {k : Key} {p r r' : Path} {n m : Nat}
    (h : t.Expands k p n r) (h' : t.Expands k p m r') : n = m ∧ r = r' := by
  induction h generalizing m with
  | nil =>
    cases h'
    exact ⟨rfl, rfl⟩
  | cons hchase _ ih =>
    obtain _ | ⟨hchase', hrest'⟩ := h'
    obtain ⟨rfl, rfl⟩ := hchase.unique hchase'
    obtain ⟨rfl, rfl⟩ := ih hrest'
    exact ⟨rfl, rfl⟩

/-- A link to itself leads nowhere. -/
theorem Chases.key_ne_of_link {t : FileTree} {p q target : Path} {n : Nat} (h : t.Chases p n q)
    (hlink : t.get? p.key = some (.link target)) : target.key ≠ p.key := by
  induction h generalizing target with
  | stop hp => exact absurd hlink (hp target)
  | hop hlink' _ ih =>
    obtain rfl := Entry.link.inj (Option.some.inj (hlink'.symm.trans hlink))
    intro hkey
    exact ih (by rw [hkey]; exact hlink) rfl

/-- Two paths that lead to one place lead to one place also below it. -/
theorem leadsTo_child_of_key_eq {t : FileTree} {p p' q q' r : Path} {s : Segment} {a a' n : Nat}
    (hs : s.IsOrdinary) (hp : t.LeadsTo p a q) (hp' : t.LeadsTo p' a' q')
    (hkey : q'.key = q.key) (h : t.LeadsTo (p.child s) n r) :
    ∃ n' r', t.LeadsTo (p'.child s) n' r' ∧ r'.key = r.key := by
  obtain ⟨q₁, a₁, b, hp₁, hchase, -⟩ := (leadsTo_child_iff hs).mp h
  obtain ⟨-, rfl⟩ := Expands.unique hp hp₁
  -- only the links after the directory are the same, so the numbers may differ
  have hchild : (q'.child s).key = (q.child s).key := by
    rw [Path.key_child q' hs, Path.key_child q hs, hkey]
  obtain ⟨r', hr', hrkey⟩ := hchase.of_key_eq hchild
  exact ⟨a' + b, r', (leadsTo_child_iff hs).mpr ⟨q', a', b, hp', hr', rfl⟩, hrkey⟩

/-! ## No link at the end -/

theorem Chases.not_link {t : FileTree} {p q : Path} {n : Nat} (h : t.Chases p n q)
    (target : Path) : t.get? q.key ≠ some (.link target) := by
  induction h with
  | stop hp => exact hp target
  | hop _ _ ih => exact ih

/-- A walk of one component or more ends where there is no link. -/
theorem Expands.not_link {t : FileTree} {k : Key} {p r : Path} {n : Nat} (h : t.Expands k p n r)
    (hk : k ≠ []) (target : Path) : t.get? r.key ≠ some (.link target) := by
  induction h with
  | nil => exact absurd rfl hk
  | cons hchase hrest ih =>
    cases hrest with
    | nil => exact hchase.not_link target
    | cons => exact ih (List.cons_ne_nil _ _)

end PollWatch.FileTree
