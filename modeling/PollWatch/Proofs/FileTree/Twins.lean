import PollWatch.Proofs.FileTree.Names
import PollWatch.Proofs.FileTree.Straight

/-!
# Two paths to one place

Two paths are *twins* when they lead to places of the same key, or both lead nowhere within the
limit of links. Twins are answered alike, up to the path that an answer names: `Twins.modified`,
`Twins.list`.

A link and its target are twins, and so is whatever is spelled alike below them, as long as no
other link stands on the way to the two and none of these paths uses up the limit. Spelled below
the link a path takes one link more, so the limit can part the two: what is kept from one
directory to the next is not that the paths are twins but that the one *follows* the other over no
more links (`Follows.child`).

> `follows_link`: the target of a link follows the link;
> `Follows.twins`: then the two are twins unless the first runs into the limit.
-/

namespace PollWatch

namespace Fault

/-- The same fault, met at another path. -/
def about (q : Path) : Fault → Fault
  | .tooManyLinks _ => .tooManyLinks q
  | .permissionDenied _ => .permissionDenied q
  | .notADirectory _ => .notADirectory q
  | .notFound _ => .notFound q
  | .refused a _ r => .refused a q r

end Fault

namespace FileTree

variable {t : FileTree}

/-- Both paths lead to one place, or neither leads anywhere within the limit of links. -/
def Twins (t : FileTree) (p p' : Path) : Prop :=
  (t.resolve? p').map Path.key = (t.resolve? p).map Path.key

/-! ## Twins are answered alike -/

theorem Twins.locate {p p' : Path} (h : t.Twins p p') :
    (∃ q q', q'.key = q.key ∧ t.locate p = .ok (q, t.get? q.key) ∧
        t.locate p' = .ok (q', t.get? q.key)) ∨
      (t.locate p = .error (.tooManyLinks p) ∧ t.locate p' = .error (.tooManyLinks p')) := by
  unfold Twins at h
  unfold FileTree.locate
  cases hq : t.resolve? p with
  | none =>
    rw [hq] at h
    rw [Option.map_eq_none_iff.mp h]
    exact Or.inr ⟨rfl, rfl⟩
  | some q =>
    rw [hq] at h
    obtain ⟨q', hq', hkey⟩ := Option.map_eq_some_iff.mp h
    rw [hq']
    exact Or.inl ⟨q, q', hkey, rfl, by rw [← hkey]⟩

theorem Twins.isDirectory {p p' : Path} (h : t.Twins p p') :
    t.isDirectory p' = t.isDirectory p := by
  unfold FileTree.isDirectory
  rcases h.locate with ⟨q, q', -, hp, hp'⟩ | ⟨hp, hp'⟩
  · rw [hp, hp']
    cases t.get? q.key with
    | none => rfl
    | some e => cases e <;> rfl
  · rw [hp, hp']

/-- Twins that are directories are known under one key. -/
theorem Twins.directory? {p p' : Path} (h : t.Twins p p') :
    (t.directory? p').map Path.key = (t.directory? p).map Path.key := by
  unfold FileTree.directory?
  rcases h.locate with ⟨q, q', hkey, hp, hp'⟩ | ⟨hp, hp'⟩
  · rw [hp, hp']
    cases t.get? q.key with
    | none => rfl
    | some e =>
      cases e with
      | directory => exact congrArg some hkey
      | _ => rfl
  · rw [hp, hp']

theorem Twins.exists_directory? {p p' name : Path} (h : t.Twins p p')
    (hname : t.directory? p = some name) :
    ∃ name', t.directory? p' = some name' ∧ name'.key = name.key := by
  have hkey := h.directory?
  rw [hname] at hkey
  exact Option.map_eq_some_iff.mp hkey

theorem Twins.modified {p p' : Path} (h : t.Twins p p') :
    t.modified p' = (t.modified p).mapError (Fault.about p') := by
  unfold FileTree.modified
  rcases h.locate with ⟨q, q', -, hp, hp'⟩ | ⟨hp, hp'⟩
  · rw [hp, hp']
    cases t.get? q.key with
    | none => rfl
    | some e =>
      cases e with
      | file seconds readable => cases readable <;> rfl
      | _ => rfl
  · rw [hp, hp']
    rfl

/-- Twins have one canonical path, up to its spelling, or none. -/
theorem Twins.canonical {p p' : Path} (h : t.Twins p p') :
    (t.canonical p').toOption.map Path.key = (t.canonical p).toOption.map Path.key := by
  unfold FileTree.canonical
  rcases h.locate with ⟨q, q', hkey, hp, hp'⟩ | ⟨hp, hp'⟩
  · rw [hp, hp']
    cases t.get? q.key with
    | none => rfl
    | some e => exact congrArg some hkey
  · rw [hp, hp']
    rfl

/-- Twins list the same names. -/
theorem Twins.list {p p' : Path} (h : t.Twins p p') :
    (∃ f, t.list p = .error f ∧ t.list p' = .error (f.about p')) ∨
      ∃ q children, t.get? q = some (.directory children true) ∧
        t.list p = .ok (children.map p.child) ∧ t.list p' = .ok (children.map p'.child) := by
  unfold FileTree.list
  rcases h.locate with ⟨q, q', -, hp, hp'⟩ | ⟨hp, hp'⟩
  · rw [hp, hp']
    cases hget : t.get? q.key with
    | none => exact Or.inl ⟨_, rfl, rfl⟩
    | some e =>
      cases e with
      | file => exact Or.inl ⟨_, rfl, rfl⟩
      | link => exact Or.inl ⟨_, rfl, rfl⟩
      | directory children listable =>
        cases listable with
        | false => exact Or.inl ⟨_, rfl, rfl⟩
        | true => exact Or.inr ⟨q.key, children, hget, rfl, rfl⟩
  · rw [hp, hp']
    exact Or.inl ⟨_, rfl, rfl⟩

/-! ## A path that follows another -/

/-- Wherever `p` leads, `p'` leads over no more links; and it leads nowhere else. -/
structure Follows (t : FileTree) (p p' : Path) : Prop where
  leads : ∀ n q, t.LeadsTo p n q → ∃ m q', m ≤ n ∧ t.LeadsTo p' m q' ∧ q'.key = q.key
  ends : t.Ends p' → t.Ends p

/-- Unless `p` runs into the limit of links, a path that follows it is its twin. -/
theorem Follows.twins {p p' : Path} (h : t.Follows p p')
    (hp : (t.resolve? p).isSome ∨ ¬ t.Ends p) : t.Twins p p' := by
  unfold Twins
  rcases hp with hsome | hnot
  · obtain ⟨q, hq⟩ := Option.isSome_iff_exists.mp hsome
    obtain ⟨n, hn, hlead⟩ := resolve?_eq_some_iff.mp hq
    obtain ⟨m, q', hm, hlead', hkey⟩ := h.leads n q hlead
    rw [hq, resolve?_eq_some_iff.mpr ⟨m, Nat.le_trans hm hn, hlead'⟩]
    exact congrArg some hkey
  · have hnone : ∀ r, ¬ t.Ends r → t.resolve? r = none := by
      intro r hr
      refine Option.eq_none_iff_forall_ne_some.mpr fun q hq => ?_
      obtain ⟨n, -, hlead⟩ := resolve?_eq_some_iff.mp hq
      exact hr ⟨n, q, hlead⟩
    rw [hnone p hnot, hnone p' fun hends => hnot (h.ends hends)]

/-- What follows a directory follows it also below. -/
theorem Follows.child {p p' : Path} (h : t.Follows p p') {s : Segment} (hs : s.IsOrdinary) :
    t.Follows (p.child s) (p'.child s) where
  leads n r hlead := by
    obtain ⟨q, a, b, hq, hchase, rfl⟩ := (leadsTo_child_iff hs).mp hlead
    obtain ⟨m, q', hm, hq', hkey⟩ := h.leads a q hq
    have hchild : (q'.child s).key = (q.child s).key := by
      rw [Path.key_child q' hs, Path.key_child q hs, hkey]
    obtain ⟨r', hchase', hrkey⟩ := hchase.of_key_eq hchild
    exact ⟨m + b, r', by omega, (leadsTo_child_iff hs).mpr ⟨q', m, b, hq', hchase', rfl⟩, hrkey⟩
  ends := by
    rintro ⟨n, r', hlead'⟩
    obtain ⟨q', a, b, hq', hchase', -⟩ := (leadsTo_child_iff hs).mp hlead'
    obtain ⟨k, q, hq⟩ := h.ends ⟨a, q', hq'⟩
    -- both directories are one place, so the link below the one is also below the other
    obtain ⟨m, q'', -, hq'', hkey⟩ := h.leads k q hq
    obtain ⟨-, rfl⟩ := Expands.unique hq' hq''
    have hchild : (q.child s).key = (q'.child s).key := by
      rw [Path.key_child q hs, Path.key_child q' hs, hkey]
    obtain ⟨r, hchase, -⟩ := hchase'.of_key_eq hchild
    exact ⟨k + b, r, (leadsTo_child_iff hs).mpr ⟨q, k, b, hq, hchase, rfl⟩⟩

/-! ## A link and its target -/

/-- A beginning of a key is spelled by its own straight path. -/
theorem key_straight_of_begins {p : Path} {j : Key} (hj : j <+: p.key) : (straight j).key = j := by
  cases j with
  | nil => rfl
  | cons c j =>
    obtain ⟨l, hl⟩ := hj
    have htail : ∀ d ∈ j, ∃ s : Segment, s.component? = some d := by
      intro d hd
      refine Path.exists_component?_of_mem_tail (p := p) ?_
      rw [← hl]
      exact List.mem_append_left _ hd
    rw [straight, List.foldl_cons, key_foldl_extend htail, key_extend_empty hl.symm]
    rfl

/-- A link is found over one link, if there is no other on the way to it and its target is none. -/
theorem leadsTo_link {a target : Path} (hlink : t.get? a.key = some (.link target))
    (hne : a.key ≠ []) (habove : ∀ j, j.IsAncestor a.key → ∀ x, t.get? j ≠ some (.link x))
    (hplain : ∀ x, t.get? target.key ≠ some (.link x)) : t.LeadsTo a 1 target := by
  obtain ⟨j, c, hconcat⟩ := (List.eq_nil_or_concat a.key).resolve_left hne
  rw [List.concat_eq_append] at hconcat
  have hj : j <+: a.key := ⟨[c], hconcat.symm⟩
  have hjkey : (straight j).key = j := key_straight_of_begins hj
  have hjplain : t.Plain (straight j).key := by
    intro i hi hij x
    rw [hjkey] at hij
    refine habove i ⟨hi, hij.trans hj, ?_⟩ x
    rintro rfl
    have hlength := hij.length_le
    rw [hconcat, List.length_append, List.length_singleton] at hlength
    omega
  -- all but the last component take no link, and the last one takes the link that `a` is
  have hstart : t.Expands j .empty 0 (straight j) := by
    have hlead := leadsTo_straight hjplain
    unfold LeadsTo at hlead
    rwa [hjkey] at hlead
  have hend : (extend (straight j) c).key = a.key := by
    have hstraight : straight a.key = extend (straight j) c := by
      rw [hconcat, straight, List.foldl_append]
      rfl
    rw [← hstraight, key_straight]
  have hchase : t.Chases (extend (straight j) c) 1 target :=
    .hop (by rw [hend]; exact hlink) (.stop hplain)
  unfold LeadsTo
  rw [hconcat, expands_append_iff]
  exact ⟨straight j, 0, 1, hstart, expands_single_iff.mpr hchase, rfl⟩

/-- The target of a link follows the link, if no other link stands on the way to either. -/
theorem follows_link {a target : Path} (hlink : t.get? a.key = some (.link target))
    (hne : a.key ≠ []) (habove : ∀ j, j.IsAncestor a.key → ∀ x, t.get? j ≠ some (.link x))
    (hplain : t.Plain target.key) (htarget : ∀ x, t.get? target.key ≠ some (.link x)) :
    t.Follows a target where
  leads n q hlead := by
    obtain ⟨rfl, rfl⟩ := Expands.unique (leadsTo_link hlink hne habove htarget) hlead
    exact ⟨0, _, Nat.zero_le _, leadsTo_straight hplain, key_straight target⟩
  ends _ := ⟨1, target, leadsTo_link hlink hne habove htarget⟩

end FileTree

end PollWatch
