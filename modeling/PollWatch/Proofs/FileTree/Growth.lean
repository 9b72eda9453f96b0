import PollWatch.FileTree.Basic

/-!
# How registering grows a tree

Registering a key makes the directories above it that are missing, up to the first
one that is there, and lets each list the next. Nothing is overwritten:

> `grows_register`: under every key stands what stood there, or a new directory, or
> the directory that stood there with more names at the end of its list.

What registering is for is said of one key at a time. A key is *held* when its parent
is stored and lists it:

> `held_insert`: an insertion leaves its own key held, and every key that it makes,
> and it lets go of none that was held.

Nothing is said of keys that were there before and were not held: registering does not look
above the first directory that it finds.
-/

namespace PollWatch

/-- The names that an entry lists. Only a directory lists any. -/
def Entry.names : Entry → List Segment
  | .directory children _ => children
  | _ => []

/-- What registering may make of what is stored under a key. -/
inductive Growth : Option Entry → Option Entry → Prop
  | same (e : Option Entry) : Growth e e
  | made (children : List Segment) : Growth none (some (.directory children true))
  | more (children added : List Segment) (listable : Bool) :
      Growth (some (.directory children listable)) (some (.directory (children ++ added) listable))

namespace Growth

variable {e f g : Option Entry}

theorem trans (h : Growth e f) (h' : Growth f g) : Growth e g := by
  cases h with
  | same => exact h'
  | made children =>
    cases h' with
    | same => exact .made children
    | more _ added => exact .made (children ++ added)
  | more children added listable =>
    cases h' with
    | same => exact .more children added listable
    | more _ added' =>
      rw [List.append_assoc]
      exact .more children (added ++ added') listable

theorem isSome (h : Growth e f) (he : e.isSome) : f.isSome := by
  cases h with
  | same => exact he
  | made => exact rfl
  | more => exact rfl

/-- A directory keeps its names and whether it may be listed. -/
theorem directory {children : List Segment} {listable : Bool}
    (h : Growth (some (.directory children listable)) f) :
    ∃ added, f = some (.directory (children ++ added) listable) := by
  cases h with
  | same => exact ⟨[], by rw [List.append_nil]⟩
  | more _ added => exact ⟨added, rfl⟩

/-- Files and links are neither made nor lost. -/
theorem eq_some_iff {x : Entry} (h : Growth e f)
    (hx : ∀ children listable, x ≠ .directory children listable) : f = some x ↔ e = some x := by
  cases h with
  | same => exact Iff.rfl
  | made children =>
    refine ⟨fun hsome => ?_, fun hsome => absurd hsome (by simp)⟩
    exact absurd (Option.some.inj hsome).symm (hx _ _)
  | more children added listable =>
    constructor
    · intro hsome
      exact absurd (Option.some.inj hsome).symm (hx _ _)
    · intro hsome
      exact absurd (Option.some.inj hsome).symm (hx _ _)

end Growth

namespace FileTree

theorem get?_new_eq_some_iff {k : Key} {e : Entry} :
    new.get? k = some e ↔ k = [.here] ∧ e = .directory [] true := by
  simp only [new, get?, List.lookup_cons, List.lookup_nil]
  split
  next hk => simp [beq_iff_eq.mp hk, eq_comm]
  next hk => simp [beq_eq_false_iff_ne.mp hk]

theorem isSome_get?_set {t : FileTree} {k j : Key} {e : Entry} (h : (t.get? j).isSome) :
    ((t.set k e).get? j).isSome := by
  rw [get?_set]
  split
  next => rfl
  next => exact h

/-- Putting an entry in place of another adds no key. -/
theorem isSome_of_get?_set {t : FileTree} {k j : Key} {e : Entry} (hk : (t.get? k).isSome)
    (h : ((t.set k e).get? j).isSome) : (t.get? j).isSome := by
  rw [get?_set] at h
  split at h
  next hj => rw [hj]; exact hk
  next => exact h

theorem get?_of_get?_erase {t : FileTree} {k j : Key} {e : Entry}
    (h : (t.erase k).get? j = some e) : t.get? j = some e := by
  rw [get?_erase] at h
  split at h
  next => exact absurd h (by simp)
  next => exact h

/-- Under every key, `u` has grown out of `t`. -/
def Grows (t u : FileTree) : Prop := ∀ k, Growth (t.get? k) (u.get? k)

theorem Grows.refl (t : FileTree) : t.Grows t := fun _ => .same _

theorem Grows.trans {t u v : FileTree} (h : t.Grows u) (h' : u.Grows v) : t.Grows v :=
  fun k => (h k).trans (h' k)

/-- A tree grows if the entry under one key does. -/
theorem grows_set {t : FileTree} {k : Key} {e : Entry} (h : Growth (t.get? k) (some e)) :
    t.Grows (t.set k e) := by
  intro j
  rw [get?_set]
  split
  next hj =>
    rw [hj]
    exact h
  next => exact .same _

theorem grows_enroll (t : FileTree) (k : Key) : t.Grows (t.enroll k) := by
  unfold enroll
  split
  next children listable s hget _ =>
    split
    next => exact .refl t
    next =>
      refine grows_set ?_
      rw [hget]
      exact .more children [s] listable
  next => exact .refl t

theorem grows_set_empty {t : FileTree} {k : Key} (h : t.get? k = none) :
    t.Grows (t.set k (.directory [] true)) := by
  refine grows_set ?_
  rw [h]
  exact .made []

theorem grows_register (t : FileTree) (k : Key) : t.Grows (t.register k) := by
  fun_induction FileTree.register t k with
  | case1 t => exact .refl t
  | case2 t k => exact t.grows_enroll k
  | case3 t k _ hparent ih =>
    have hnone : t.get? k.parent = none := Option.not_isSome_iff_eq_none.mp hparent
    exact ((grows_set_empty hnone).trans ih).trans (grows_enroll _ k)

/-- Enrolling a key writes to its parent only. -/
theorem get?_enroll_of_ne (t : FileTree) {k j : Key} (h : j ≠ k.parent) :
    (t.enroll k).get? j = t.get? j := by
  unfold enroll
  split
  next =>
    split
    next => rfl
    next => rw [get?_set, if_neg h]
  next => rfl

/-! ## Keys that are held -/

/-- The parent of `k` is stored, and lists the name of `k` if it is a directory. -/
structure Held (t : FileTree) (k : Key) : Prop where
  stored : (t.get? k.parent).isSome
  listed : ∀ children listable, t.get? k.parent = some (.directory children listable) →
    ∀ s, listedName? k = some s → s ∈ children

/-- Only what is stored under the parent counts. -/
theorem Held.congr {t u : FileTree} {k : Key} (h : t.Held k)
    (hsame : u.get? k.parent = t.get? k.parent) : u.Held k where
  stored := by rw [hsame]; exact h.stored
  listed := by rw [hsame]; exact h.listed

/-- A key that is held stays held while the tree grows. -/
theorem Held.grow {t u : FileTree} {k : Key} (h : t.Held k) (hgrows : t.Grows u) : u.Held k where
  stored := (hgrows k.parent).isSome h.stored
  listed children listable hget s hs := by
    obtain ⟨e, he⟩ := Option.isSome_iff_exists.mp h.stored
    have hgrowth := hgrows k.parent
    rw [he, hget] at hgrowth
    cases hgrowth with
    | same => exact h.listed children listable he s hs
    | more old added => exact List.mem_append_left _ (h.listed old listable he s hs)

theorem held_enroll {t : FileTree} {k : Key} (h : (t.get? k.parent).isSome) :
    (t.enroll k).Held k where
  stored := (t.grows_enroll k k.parent).isSome h
  listed children listable hget s hs := by
    unfold enroll at hget
    rw [hs] at hget
    split at hget
    next old listable' s' hold hs' =>
      obtain rfl := Option.some.inj hs'
      split at hget
      next hmem =>
        obtain ⟨rfl, -⟩ := Entry.directory.inj (Option.some.inj (hold.symm.trans hget))
        exact hmem
      next =>
        rw [get?_set, if_pos rfl] at hget
        obtain ⟨rfl, -⟩ := Entry.directory.inj (Option.some.inj hget)
        exact List.mem_append_right _ (List.mem_singleton_self s)
    next hnot => exact absurd rfl (hnot children listable s hget)

/-- Registered, every key but `.` is held. -/
theorem held_register (t : FileTree) {k : Key} (hk : k ≠ [.here]) : (t.register k).Held k := by
  unfold register
  rw [if_neg hk]
  split
  next hstored => exact held_enroll hstored
  next =>
    refine held_enroll ((grows_register _ k.parent k.parent).isSome ?_)
    rw [get?_set, if_pos rfl]
    rfl

/-- The directories that registering makes are held. -/
theorem held_of_made {t : FileTree} {k j : Key} (hj : j ≠ [.here]) (hnone : t.get? j = none)
    (hsome : ((t.register k).get? j).isSome) : (t.register k).Held j := by
  fun_induction FileTree.register t k with
  | case1 => rw [hnone] at hsome; exact absurd hsome (by simp)
  | case2 t k _ hparent =>
    -- only the parent is written to, and it was there
    have hne : j ≠ k.parent := by
      rintro rfl
      rw [hnone] at hparent
      exact absurd hparent (by simp)
    rw [get?_enroll_of_ne t hne, hnone] at hsome
    exact absurd hsome (by simp)
  | case3 t k _ hparent ih =>
    by_cases hne : j = k.parent
    · subst hne
      exact (held_register _ hj).grow (grows_enroll _ k)
    · rw [get?_enroll_of_ne _ hne] at hsome
      have hnone' : (t.set k.parent (.directory [] true)).get? j = none := by
        rw [get?_set, if_neg hne, hnone]
      exact (ih hnone' hsome).grow (grows_enroll _ k)

/-- An entry that lists nothing can be put in place of another without letting go of a key,
unless a directory comes to stand where nothing was. Then nothing was held by that place. -/
theorem Held.set {t : FileTree} {k j : Key} (h : t.Held j) {e : Entry}
    (he : (∀ children listable, e ≠ .directory children listable) ∨ t.get? k = none) :
    (t.set k e).Held j := by
  by_cases hjk : j.parent = k
  · have hget : (t.set k e).get? j.parent = some e := by rw [get?_set, if_pos hjk]
    refine ⟨by rw [hget]; rfl, fun children listable hdir => ?_⟩
    rw [hget] at hdir
    rcases he with he | he
    · exact absurd (Option.some.inj hdir) (he children listable)
    · have hstored := h.stored
      rw [hjk, he] at hstored
      exact absurd hstored (by simp)
  · exact h.congr (by rw [get?_set, if_neg hjk])

/-- **An insertion holds what it makes.** After it, its own key is held, so is every key that was
not there before, and so is every key that was held. -/
theorem held_insert {t : FileTree} {p : Path} {e : Entry}
    (he : (∀ children listable, e ≠ .directory children listable) ∨ t.get? p.key = none)
    {j : Key} (hj : j ≠ [.here]) (hstored : ((t.insert p e).get? j).isSome)
    (hold : (t.get? j).isSome → j ≠ p.key → t.Held j) : (t.insert p e).Held j := by
  unfold insert at hstored ⊢
  by_cases hjp : j = p.key
  · rw [hjp] at hj ⊢
    exact held_register _ hj
  · by_cases hsome : (t.get? j).isSome
    · exact ((hold hsome hjp).set he).grow (grows_register _ p.key)
    · have hnone : (t.set p.key e).get? j = none := by
        rw [get?_set, if_neg hjp]
        exact Option.not_isSome_iff_eq_none.mp hsome
      exact held_of_made hj hnone hstored

/-- What is inserted is there afterwards, with names added if it is a directory. -/
theorem growth_get?_insert (t : FileTree) (p : Path) (e : Entry) (j : Key) :
    Growth (if j = p.key then some e else t.get? j) ((t.insert p e).get? j) := by
  have hgrowth := grows_register (t.set p.key e) p.key j
  rw [get?_set] at hgrowth
  exact hgrowth

theorem get?_insert_eq_some_iff (t : FileTree) (p : Path) (e : Entry) (j : Key) {x : Entry}
    (hx : ∀ children listable, x ≠ .directory children listable) :
    (t.insert p e).get? j = some x ↔ (if j = p.key then some e else t.get? j) = some x :=
  (t.growth_get?_insert p e j).eq_some_iff hx

end FileTree

end PollWatch
