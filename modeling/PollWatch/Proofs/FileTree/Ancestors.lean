import Mathlib.Data.List.Induction
import PollWatch.Proofs.FileTree.Names
import PollWatch.Proofs.FileTree.Unlinked

/-!
# Whether an entry can be found from above

An entry can be found from the directories above it if each of them is there and lists the
next name on the way (`ListsDownTo`). An insertion walks upward only to the first entry that
is stored, and relies on that one:

> `listsDownTo_insert_iff`: what is inserted can be found from above if and only if
> everything stored above it could be.

While deletions spare what has entries below it, every stored key stays held by its
parent (`ReachableBy.holdsTextual`), and from above it can be found unless a file stands
there (`HoldsTextual.listsDownTo`). Other deletions leave entries behind that nothing above
leads to, and what is inserted below such an entry cannot be found either.
-/

namespace PollWatch.FileTree

/-- Every directory on the way down to `k` is there and lists the next name on the way. -/
def ListsDownTo (t : FileTree) (k : Key) : Prop :=
  ∀ j s, j ≠ [] → j ++ [.name s] <+: k →
    ∃ children listable, t.get? j = some (.directory children listable) ∧ s ∈ children

/-- What is stored above `k` are directories. -/
def OnlyDirectoriesAbove (t : FileTree) (k : Key) : Prop :=
  ∀ j, j.IsAncestor k → ∀ e, t.get? j = some e →
    ∃ children listable, e = .directory children listable

/-- Whatever is stored above `k` can itself be found from above. -/
def ListsDownAbove (t : FileTree) (k : Key) : Prop :=
  ∀ j, j.IsAncestor k → (t.get? j).isSome → t.ListsDownTo j

variable {t u : FileTree}

theorem Unlinked.onlyDirectoriesAbove (h : t.Unlinked) {k : Key}
    (hfiles : ∀ j, j.IsAncestor k → ∀ seconds readable,
      t.get? j ≠ some (.file seconds readable)) : t.OnlyDirectoriesAbove k := by
  intro j hj e he
  cases e with
  | file seconds readable => exact absurd he (hfiles j hj seconds readable)
  | directory children listable => exact ⟨children, listable, rfl⟩
  | link target => exact absurd he (h j target)

theorem listsDownTo_singleton (t : FileTree) (c : Component) : t.ListsDownTo [c] := by
  intro j s hj hpre
  have hlength := hpre.length_le
  rw [List.length_append, List.length_singleton, List.length_singleton] at hlength
  exact absurd (List.length_eq_zero_iff.mp (by omega)) hj

/-- One step further down. -/
theorem ListsDownTo.concat {j : Key} {s : Segment} {children : List Segment} {listable : Bool}
    (h : t.ListsDownTo j) (hget : t.get? j = some (.directory children listable))
    (hs : s ∈ children) : t.ListsDownTo (j ++ [.name s]) := by
  intro i s' hi hpre
  rcases List.prefix_concat_iff.mp hpre with heq | hpre
  · obtain ⟨rfl, hname⟩ := List.append_inj' heq rfl
    obtain rfl := Component.name.inj (List.head_eq_of_cons_eq hname)
    exact ⟨children, listable, hget, hs⟩
  · exact h i s' hi hpre

theorem ListsDownTo.of_begins {j k : Key} (h : t.ListsDownTo k) (hjk : j <+: k) :
    t.ListsDownTo j :=
  fun i s hi hpre => h i s hi (hpre.trans hjk)

theorem ListsDownTo.grow {k : Key} (h : t.ListsDownTo k) (hgrows : t.Grows u) :
    u.ListsDownTo k := by
  intro j s hj hpre
  obtain ⟨children, listable, hget, hs⟩ := h j s hj hpre
  have hgrowth := hgrows j
  rw [hget] at hgrowth
  obtain ⟨added, hget'⟩ := hgrowth.directory
  exact ⟨children ++ added, listable, hget', List.mem_append_left _ hs⟩

/-- Only what stands above the key counts. -/
theorem ListsDownTo.congr {k : Key} (h : t.ListsDownTo k)
    (hsame : ∀ j, j.IsAncestor k → u.get? j = t.get? j) : u.ListsDownTo k := by
  intro j s hj hpre
  rw [hsame j ((Key.isAncestor_concat hj _).trans_begins hpre)]
  exact h j s hj hpre

/-! ## Insertions -/

/-- Enrolled in a directory that can be found, a key can be found. -/
theorem listsDownTo_enroll {j : Key} {s : Segment} (hj : j ≠ [])
    (hs : (Bytes.text? s.bytes).isSome) (hdown : t.ListsDownTo j) {children : List Segment}
    {listable : Bool} (hget : t.get? j = some (.directory children listable)) :
    (t.enroll (j ++ [.name s])).ListsDownTo (j ++ [.name s]) := by
  have hparent : (j ++ [.name s] : Key).parent = j := Key.parent_concat hj _
  have hgrows := t.grows_enroll (j ++ [.name s])
  have hgrowth := hgrows j
  rw [hget] at hgrowth
  obtain ⟨added, hget'⟩ := hgrowth.directory
  have hheld : (t.enroll (j ++ [.name s])).Held (j ++ [.name s]) := by
    refine held_enroll ?_
    rw [hparent, hget]
    rfl
  refine (hdown.grow hgrows).concat hget' ?_
  exact hheld.listed _ listable (by rw [hparent]; exact hget') s (Key.listedName?_concat j hs)

/-- Registering relies on the first directory that it finds above: if that can be found from
above, so can the key. The induction goes up with the registration. -/
theorem listsDownTo_register {k : Key} (hk : k.Textual) (hdir : t.OnlyDirectoriesAbove k)
    (habove : t.ListsDownAbove k) : (t.register k).ListsDownTo k := by
  fun_induction FileTree.register t k with
  | case1 => exact absurd rfl hk.ne_dot
  | case2 t k _ hstored =>
    obtain ⟨j, s, rfl, -, hs⟩ := hk.exists_concat
    by_cases hj : j = []
    · subst hj
      exact listsDownTo_singleton _ _
    · rw [Key.parent_concat hj] at hstored
      have hancestor := Key.isAncestor_concat hj (.name s)
      obtain ⟨e, he⟩ := Option.isSome_iff_exists.mp hstored
      obtain ⟨children, listable, rfl⟩ := hdir j hancestor e he
      exact listsDownTo_enroll hj hs (habove j hancestor hstored) he
  | case3 t k _ _ ih =>
    obtain ⟨j, s, rfl, -, hs⟩ := hk.exists_concat
    by_cases hj : j = []
    · subst hj
      exact listsDownTo_singleton _ _
    · rw [Key.parent_concat hj] at ih ⊢
      have hancestor := Key.isAncestor_concat hj (.name s)
      -- above the new directory stands what stood there
      have hsame : ∀ i, i.IsAncestor j → (t.set j (.directory [] true)).get? i = t.get? i :=
        fun i hi => by rw [get?_set, if_neg hi.ne]
      have hdown : ((t.set j (.directory [] true)).register j).ListsDownTo j := by
        refine ih (hk.of_isAncestor hancestor) (fun i hi e he => ?_) fun i hi hstored => ?_
        · rw [hsame i hi] at he
          exact hdir i (hi.trans_begins hancestor.begins) e he
        · rw [hsame i hi] at hstored
          exact (habove i (hi.trans_begins hancestor.begins) hstored).congr
            fun l hl => hsame l (hl.trans_begins hi.begins)
      have hgrowth := grows_register (t.set j (.directory [] true)) j j
      rw [get?_set, if_pos rfl] at hgrowth
      obtain ⟨added, hget⟩ := hgrowth.directory
      exact listsDownTo_enroll hj hs hdown hget

/-- Above an entry that is stored, registering a key below it does nothing. -/
theorem get?_register_of_above {i j k : Key} (hij : i.IsAncestor j) (hjk : j.IsAncestor k)
    (hstored : (t.get? j).isSome) : (t.register k).get? i = t.get? i := by
  -- the parent of the key is at or below `j`, and so is everything that is written to
  fun_induction FileTree.register t k with
  | case1 => rfl
  | case2 t k => exact get?_enroll_of_ne t (hij.trans_begins hjk.begins_parent).ne
  | case3 t k _ hnone ih =>
    have hjp := hjk.begins_parent
    have hip := hij.trans_begins hjp
    have hne : j ≠ k.parent := by
      rintro rfl
      exact hnone hstored
    rw [get?_enroll_of_ne _ hip.ne, ih ⟨hjk.ne_nil, hjp, hne⟩ ?_, get?_set, if_neg hip.ne]
    rw [get?_set, if_neg hne]
    exact hstored

/-- **What is inserted can be found from above if and only if everything stored above it could
be.** -/
theorem listsDownTo_insert_iff {p : Path} (hp : p.key.Textual)
    (hdir : t.OnlyDirectoriesAbove p.key) (e : Entry) :
    (t.insert p e).ListsDownTo p.key ↔ t.ListsDownAbove p.key := by
  have hsame : ∀ i, i.IsAncestor p.key → (t.set p.key e).get? i = t.get? i :=
    fun i hi => by rw [get?_set, if_neg hi.ne]
  unfold insert
  constructor
  · intro hdown j hj hstored
    refine (hdown.of_begins hj.begins).congr fun i hi => ?_
    rw [get?_register_of_above hi hj (by rw [hsame j hj]; exact hstored)]
    exact (hsame i (hi.trans_begins hj.begins)).symm
  · intro habove
    refine listsDownTo_register hp (fun j hj e' he => ?_) fun j hj hstored => ?_
    · rw [hsame j hj] at he
      exact hdir j hj e' he
    · rw [hsame j hj] at hstored
      exact (habove j hj hstored).congr fun i hi => hsame i (hi.trans_begins hj.begins)

/-! ## Histories that spare what has entries below it -/

/-- The change deletes no entry that has others directly below it. -/
def Spares (t : FileTree) : Change → Prop
  | .vanish p => p.key ≠ [] → ∀ s, t.get? (p.key ++ [.name s]) = none
  | .remove p => p.key ≠ [] → ∀ s, t.get? (p.key ++ [.name s]) = none
  | _ => True

/-- Every stored key of more than one name is held by its parent. -/
def HoldsTextual (t : FileTree) : Prop :=
  ∀ j s, j ≠ [] → (j ++ [.name s] : Key).Textual → (t.get? (j ++ [.name s])).isSome →
    t.Held (j ++ [.name s])

theorem holdsTextual_new : HoldsTextual .new := by
  intro j s _ htext hstored
  obtain ⟨e, he⟩ := Option.isSome_iff_exists.mp hstored
  exact absurd (get?_new_eq_some_iff.mp he).1 htext.ne_dot

theorem HoldsTextual.insert (h : t.HoldsTextual) {p : Path} {e : Entry}
    (he : (∀ children listable, e ≠ .directory children listable) ∨ t.get? p.key = none) :
    (t.insert p e).HoldsTextual :=
  fun j s hj htext hstored =>
    held_insert he htext.ne_dot hstored fun hold _ => h j s hj htext hold

/-- An entry that is rewritten in its place holds what it held. -/
theorem Held.rewrite {k j : Key} (h : t.Held j) {e e' : Entry} (hget : t.get? k = some e)
    (he : e.Rewritten e') : (t.set k e').Held j := by
  by_cases hjk : j.parent = k
  · have hget' : (t.set k e').get? j.parent = some e' := by rw [get?_set, if_pos hjk]
    refine ⟨by rw [hget']; rfl, fun children listable hdir s hs => ?_⟩
    rw [hget'] at hdir
    cases he with
    | file => exact absurd hdir (by simp)
    | directory =>
      obtain ⟨rfl, -⟩ := Entry.directory.inj (Option.some.inj hdir)
      exact h.listed _ _ (by rw [hjk]; exact hget) s hs
  · exact h.congr (by rw [get?_set, if_neg hjk])

/-- A deletion lets go of no other key than its own, if nothing was held by what it deletes. -/
theorem HoldsTextual.erase (h : t.HoldsTextual) {k : Key}
    (hspare : k ≠ [] → ∀ s, t.get? (k ++ [.name s]) = none) : (t.erase k).HoldsTextual := by
  intro j s hj htext hstored
  rw [get?_erase] at hstored
  split at hstored
  next => exact absurd hstored (by simp)
  next hne =>
    have hjk : j ≠ k := by
      rintro rfl
      rw [hspare hj s] at hstored
      exact absurd hstored (by simp)
    exact (h j s hj htext hstored).congr (by rw [get?_erase, Key.parent_concat hj, if_neg hjk])

/-- A name may be struck from the list of its parent if the entry is gone. -/
theorem HoldsTextual.unlist (h : t.HoldsTextual) {k : Key} {children : List Segment}
    {listable : Bool} {s : Segment} (hgone : t.get? k = none)
    (hget : t.get? k.parent = some (.directory children listable))
    (hs : listedName? k = some s) :
    (t.set k.parent (.directory (children.filter (· ≠ s)) listable)).HoldsTextual := by
  intro j s' hj htext hstored
  have hold : (t.get? (j ++ [.name s'])).isSome :=
    isSome_of_get?_set (by rw [hget]; rfl) hstored
  have hheld := h j s' hj htext hold
  have hparent : (j ++ [.name s'] : Key).parent = j := Key.parent_concat hj _
  refine ⟨isSome_get?_set hheld.stored, fun children' listable' hdir s'' hs'' => ?_⟩
  rw [get?_set] at hdir
  split at hdir
  next heq =>
    obtain ⟨rfl, -⟩ := Entry.directory.inj (Option.some.inj hdir)
    have hmem := hheld.listed children listable (by rw [heq]; exact hget) s'' hs''
    refine List.mem_filter.mpr ⟨hmem, ?_⟩
    simp only [ne_eq, decide_not, Bool.not_eq_eq_eq_not, Bool.not_true, decide_eq_false_iff_not]
    -- the struck name would belong to the entry that is gone
    rintro rfl
    rw [hparent] at heq
    have hjdot : j ≠ [.here] := (htext.of_begins hj (List.prefix_append _ _)).ne_dot
    have hk := (Key.eq_of_listedName? hs).resolve_right fun hdot => hjdot (heq.trans hdot.1)
    have hk' := (Key.eq_of_listedName? hs'').resolve_right fun hdot =>
      hjdot (hparent.symm.trans hdot.1)
    rw [hk', hparent, heq, ← hk, hgone] at hold
    exact absurd hold (by simp)
  next => exact hheld.listed children' listable' hdir s'' hs''

theorem HoldsTextual.apply (h : t.HoldsTextual) {c : Change} (hc : t.Spares c)
    (hu : t.apply c = .ok u) : u.HoldsTextual := by
  cases applied_of_apply hu with
  | kept => exact h
  | addFile => exact h.insert (Or.inl (by simp))
  | addDirectory hnone => exact h.insert (Or.inr hnone)
  | addLink => exact h.insert (Or.inl (by simp))
  | rewritten _ hget he =>
    intro j s hj htext hstored
    exact (h j s hj htext (isSome_of_get?_set (by rw [hget]; rfl) hstored)).rewrite hget he
  | vanish => exact h.erase hc
  | unlisted hget hs =>
    exact (h.erase hc).unlist (by rw [get?_erase, if_pos rfl]) hget hs
  | remove => exact h.erase hc

theorem ReachableBy.holdsTextual {allowed : FileTree → Change → Prop}
    (hallowed : ∀ t c, allowed t c → t.Spares c) (h : t.ReachableBy allowed) :
    t.HoldsTextual := by
  induction h with
  | new => exact holdsTextual_new
  | change _ hc hu ih => exact ih.apply (hallowed _ _ hc) hu

/-- In a tree whose entries are held, what is stored can be found from above, unless a file stands
above it. -/
theorem HoldsTextual.listsDownTo (h : t.HoldsTextual) {k : Key} (hk : k.Textual)
    (hstored : (t.get? k).isSome) (hdir : t.OnlyDirectoriesAbove k) : t.ListsDownTo k := by
  induction k using List.reverseRecOn with
  | nil => exact absurd rfl hk.1
  | append_singleton j c ih =>
    obtain ⟨j', s, heq, -, hs⟩ := hk.exists_concat
    obtain ⟨rfl, hc⟩ := List.append_inj' heq rfl
    obtain rfl := List.head_eq_of_cons_eq hc
    by_cases hj : j = []
    · subst hj
      exact listsDownTo_singleton _ _
    · have hancestor := Key.isAncestor_concat hj (.name s)
      have hheld := h j s hj hk hstored
      have hparent : (j ++ [.name s] : Key).parent = j := Key.parent_concat hj _
      have hjstored := hheld.stored
      rw [hparent] at hjstored
      obtain ⟨e, he⟩ := Option.isSome_iff_exists.mp hjstored
      obtain ⟨children, listable, rfl⟩ := hdir j hancestor e he
      have hdown := ih (hk.of_isAncestor hancestor) hjstored
        fun i hi => hdir i (hi.trans_begins hancestor.begins)
      refine hdown.concat he ?_
      exact hheld.listed _ listable (by rw [hparent]; exact he) s (Key.listedName?_concat j hs)

end PollWatch.FileTree
