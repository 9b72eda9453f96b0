import Mathlib
import PollWatch.Proofs.FileTree.Applied
import PollWatch.Proofs.FileTree.Growth
import PollWatch.Proofs.FileTree.Names

/-!
# What an insertion leaves alone

Inserting an entry registers it with its parent, which is made and registered in turn if it is
missing, and so on. This comes to an end, because each parent is nearer to `.` than the key it is
the parent of (`Key.height_parent_lt`): the empty path and the root have the parent `.`, and only
`.` is its own parent.

The keys that are made are the ancestors up to the first one that is stored (`missing`), and what
is written besides is a name in the list of that one (`nearest?`). Both come from two statements
about registering a key, which say of every key what is stored under it afterwards:

> `get?_register_parent`: the parent of each key that is registered lists it;
> `get?_register_of_ne`: every other key has what it had.

> `apply_insertion`: an insertion ends, and changes one entry at most that was there before.
-/

namespace PollWatch

namespace Key

/-! ## Ancestors -/

/-- How far a key is from `.`. -/
def height (k : Key) : Nat := if k = [.here] then 0 else k.length + 1

theorem height_parent_lt {k : Key} (h : k ≠ [.here]) : k.parent.height < k.height := by
  have hk : k.height = k.length + 1 := if_neg h
  have hdot : height [.here] = 0 := rfl
  rcases List.eq_nil_or_concat k with rfl | ⟨l, c, rfl⟩
  · exact Nat.succ_pos _
  · rw [List.concat_eq_append] at h hk ⊢
    by_cases hl : l = []
    · subst hl
      rw [List.nil_append, parent_singleton, hdot, ← List.nil_append [c], hk]
      exact Nat.succ_pos _
    · rw [parent_concat hl, hk, List.length_append, List.length_singleton]
      unfold height
      split
      next => exact Nat.succ_pos _
      next => exact Nat.lt_succ_self _

/-- Only `.` is its own parent. -/
theorem parent_eq_self_iff {k : Key} : k.parent = k ↔ k = [.here] := by
  constructor
  · intro hself
    by_cases h : k = [.here]
    · exact h
    · have hlt := height_parent_lt h
      rw [hself] at hlt
      exact absurd hlt (Nat.lt_irrefl _)
  · rintro rfl
    exact parent_singleton _

/-- The parent of a key, the parent of that, and so on up to `.`. -/
def ancestors (k : Key) : List Key := if k = [.here] then [] else k.parent :: k.parent.ancestors
termination_by k.height
decreasing_by exact height_parent_lt ‹_›

theorem ancestors_of_ne {k : Key} (h : k ≠ [.here]) :
    k.ancestors = k.parent :: k.parent.ancestors := by
  rw [ancestors, if_neg h]

theorem height_lt_of_mem_ancestors {j k : Key} (h : j ∈ k.ancestors) : j.height < k.height := by
  fun_induction ancestors k with
  | case1 => exact absurd h List.not_mem_nil
  | case2 k hk ih =>
    have hlt := height_parent_lt hk
    rcases List.mem_cons.mp h with rfl | hj
    · exact hlt
    · exact Nat.lt_trans (ih hj) hlt

theorem not_mem_ancestors (k : Key) : k ∉ k.ancestors :=
  fun h => Nat.lt_irrefl _ (height_lt_of_mem_ancestors h)

end Key

/-- The entry with one more name at the end of its list, if it is a directory that does not list
the name. -/
def Entry.listing (e : Entry) (s? : Option Segment) : Entry :=
  match e, s? with
  | .directory children listable, some s =>
    if s ∈ children then e else .directory (children ++ [s]) listable
  | _, _ => e

theorem Entry.listing_empty (s? : Option Segment) :
    (Entry.directory [] true).listing s? = .directory s?.toList true := by
  cases s? <;> rfl

theorem Entry.listing_cases (e : Entry) (s? : Option Segment) :
    e.listing s? = e ∨ ∃ children listable s, e = .directory children listable ∧ s? = some s ∧
      e.listing s? = .directory (children ++ [s]) listable := by
  unfold Entry.listing
  split
  next children listable s =>
    split
    next => exact Or.inl rfl
    next => exact Or.inr ⟨children, listable, s, rfl, rfl, rfl⟩
  next => exact Or.inl rfl

namespace FileTree

variable {t : FileTree} {k : Key}

/-- The ancestors of a key that come before the first one that is stored. -/
def missing (t : FileTree) (k : Key) : List Key := k.ancestors.takeWhile fun j => (t.get? j).isNone

/-- The keys that are registered with their parents when `k` is: `k` and the directories made. -/
def registered (t : FileTree) (k : Key) : List Key := k :: t.missing k

/-- The first ancestor of a key that is stored. -/
def nearest? (t : FileTree) (k : Key) : Option Key := k.ancestors.find? fun j => (t.get? j).isSome

theorem missing_dot (t : FileTree) : t.missing [.here] = [] := by
  rw [missing, Key.ancestors, if_pos rfl]
  rfl

theorem missing_of_stored (hk : k ≠ [.here]) (h : (t.get? k.parent).isSome) :
    t.missing k = [] := by
  have hstored : (t.get? k.parent).isNone = false := Option.isNone_eq_false_iff.mpr h
  rw [missing, Key.ancestors_of_ne hk, List.takeWhile_cons, hstored]
  rfl

theorem missing_of_none (hk : k ≠ [.here]) (h : t.get? k.parent = none) :
    t.missing k = k.parent :: t.missing k.parent := by
  rw [missing, Key.ancestors_of_ne hk, List.takeWhile_cons, h]
  rfl

theorem nearest?_of_stored (hk : k ≠ [.here]) (h : (t.get? k.parent).isSome) :
    t.nearest? k = some k.parent := by
  rw [nearest?, Key.ancestors_of_ne hk, List.find?_cons, h]

theorem nearest?_of_none (hk : k ≠ [.here]) (h : t.get? k.parent = none) :
    t.nearest? k = t.nearest? k.parent := by
  rw [nearest?, Key.ancestors_of_ne hk, List.find?_cons, h]
  rfl

theorem isSome_of_nearest? {j : Key} (h : t.nearest? k = some j) : (t.get? j).isSome := by
  have hfound := List.find?_some h
  exact hfound

theorem get?_eq_none_of_mem_missing {j : Key} (h : j ∈ t.missing k) : t.get? j = none :=
  Option.isNone_iff_eq_none.mp (List.all_eq_true.mp List.all_takeWhile j h)

theorem mem_ancestors_of_mem_missing {j : Key} (h : j ∈ t.missing k) : j ∈ k.ancestors :=
  (List.takeWhile_prefix _).subset h

/-- What is stored under `k` decides nothing about the ancestors of `k`. -/
theorem missing_set_self (t : FileTree) (k : Key) (e : Entry) :
    (t.set k e).missing k = t.missing k := by
  have hcongr : ∀ l : List Key, k ∉ l →
      l.takeWhile (fun j => ((t.set k e).get? j).isNone)
        = l.takeWhile fun j => (t.get? j).isNone := by
    intro l hl
    induction l with
    | nil => rfl
    | cons j l ih =>
      obtain ⟨hj, hl⟩ := not_or.mp (mt List.mem_cons.mpr hl)
      rw [List.takeWhile_cons, List.takeWhile_cons, get?_set, if_neg (Ne.symm hj), ih hl]
  exact hcongr _ k.not_mem_ancestors

theorem registered_set_self (t : FileTree) (k : Key) (e : Entry) :
    (t.set k e).registered k = t.registered k :=
  congrArg (k :: ·) (t.missing_set_self k e)

/-! ## The keys that are registered -/

theorem registered_of_none (hk : k ≠ [.here]) (h : t.get? k.parent = none) :
    t.registered k = k :: t.registered k.parent := by
  rw [registered, missing_of_none hk h]
  rfl

/-- A directory that is made is the parent of a key that is registered. -/
theorem exists_registered_of_mem_missing {j : Key} (h : j ∈ t.missing k) :
    ∃ i ∈ t.registered k, i ≠ [.here] ∧ i.parent = j := by
  fun_induction Key.ancestors k with
  | case1 => rw [missing_dot] at h; exact absurd h List.not_mem_nil
  | case2 k hk ih =>
    by_cases hstored : (t.get? k.parent).isSome
    · rw [missing_of_stored hk hstored] at h
      exact absurd h List.not_mem_nil
    · have hnone := Option.not_isSome_iff_eq_none.mp hstored
      rw [registered_of_none hk hnone]
      rw [missing_of_none hk hnone] at h
      rcases List.mem_cons.mp h with rfl | hj
      · exact ⟨k, List.mem_cons_self .., hk, rfl⟩
      · obtain ⟨i, hi, hne, hparent⟩ := ih hj
        exact ⟨i, List.mem_cons_of_mem _ hi, hne, hparent⟩

/-- The parent of a key that is registered is made, or is the nearest ancestor. -/
theorem parent_of_mem_registered {i : Key} (h : i ∈ t.registered k) (hi : i ≠ [.here]) :
    i.parent ∈ t.missing k ∨ t.nearest? k = some i.parent := by
  fun_induction Key.ancestors k with
  | case1 =>
    rw [registered, missing_dot] at h
    exact absurd (List.mem_singleton.mp h) hi
  | case2 k hk ih =>
    by_cases hstored : (t.get? k.parent).isSome
    · rw [registered, missing_of_stored hk hstored] at h
      rw [List.mem_singleton.mp h]
      exact Or.inr (nearest?_of_stored hk hstored)
    · have hnone := Option.not_isSome_iff_eq_none.mp hstored
      rw [registered_of_none hk hnone] at h
      rw [missing_of_none hk hnone, nearest?_of_none hk hnone]
      rcases List.mem_cons.mp h with rfl | h
      · exact Or.inl (List.mem_cons_self ..)
      · exact (ih h).imp_left (List.mem_cons_of_mem _)

/-- The parents of keys that are registered are ancestors. -/
theorem parent_mem_ancestors {i : Key} (h : i ∈ t.registered k) (hi : i ≠ [.here]) :
    i.parent ∈ k.ancestors := by
  rcases parent_of_mem_registered h hi with hmissing | hnearest
  · exact mem_ancestors_of_mem_missing hmissing
  · exact List.mem_of_find?_eq_some hnearest

theorem parent_ne_of_mem_registered {i : Key} (h : i ∈ t.registered k) (hi : i ≠ [.here]) :
    i.parent ≠ k := by
  rintro rfl
  exact i.parent.not_mem_ancestors (parent_mem_ancestors h hi)

/-! ## What registering writes -/

theorem get?_enroll_parent {e : Entry} (h : t.get? k.parent = some e) :
    (t.enroll k).get? k.parent = some (e.listing (listedName? k)) := by
  unfold enroll Entry.listing
  rw [h]
  cases hs : listedName? k with
  | none => cases e <;> exact h
  | some s =>
    cases e with
    | directory children listable =>
      dsimp only
      split
      next => exact h
      next => rw [get?_set, if_pos rfl]
    | file => exact h
    | link => exact h

/-- Registering a key writes to the parents of the keys that are registered, and nowhere else. -/
theorem get?_register_of_ne {j : Key}
    (h : ∀ i ∈ t.registered k, i ≠ [.here] → j ≠ i.parent) :
    (t.register k).get? j = t.get? j := by
  fun_induction FileTree.register t k with
  | case1 => rfl
  | case2 t k hk _ => exact get?_enroll_of_ne t (h k (List.mem_cons_self ..) hk)
  | case3 t k hk hparent ih =>
    have hnone := Option.not_isSome_iff_eq_none.mp hparent
    rw [registered_of_none hk hnone] at h
    have hj := h k (List.mem_cons_self ..) hk
    rw [get?_enroll_of_ne _ hj, ih, get?_set, if_neg hj]
    intro i hi
    rw [registered_set_self] at hi
    exact h i (List.mem_cons_of_mem _ hi)

/-- **The parent of each key that is registered lists it**, and is made if it was missing. -/
theorem get?_register_parent {i : Key} (h : i ∈ t.registered k) (hi : i ≠ [.here]) :
    (t.register k).get? i.parent
      = some (((t.get? i.parent).getD (.directory [] true)).listing (listedName? i)) := by
  fun_induction FileTree.register t k with
  | case1 =>
    rw [registered, missing_dot] at h
    exact absurd (List.mem_singleton.mp h) hi
  | case2 t k hk hparent =>
    rw [registered, missing_of_stored hk hparent] at h
    rw [List.mem_singleton.mp h]
    obtain ⟨e, he⟩ := Option.isSome_iff_exists.mp hparent
    rw [get?_enroll_parent he, he]
    rfl
  | case3 t k hk hparent ih =>
    have hnone := Option.not_isSome_iff_eq_none.mp hparent
    rw [registered_of_none hk hnone] at h
    rw [registered_set_self] at ih
    rcases List.mem_cons.mp h with rfl | h
    · -- registering the new directory writes above it only, so it is still empty
      have hmade : ((t.set i.parent (.directory [] true)).register i.parent).get? i.parent
          = some (.directory [] true) := by
        rw [get?_register_of_ne, get?_set, if_pos rfl]
        rw [registered_set_self]
        exact fun l hl hdot => (parent_ne_of_mem_registered hl hdot).symm
      rw [get?_enroll_parent hmade, hnone]
      rfl
    · have habove := parent_ne_of_mem_registered h hi
      rw [get?_enroll_of_ne _ habove, ih h, get?_set, if_neg habove]

/-! ## Insertions -/

/-- What has become of `t` by inserting `e` under `k`. Each directory that is made lists the key
that it was made for, if the name of that is text, and the nearest ancestor that was there may list
one more. -/
structure Inserted (t u : FileTree) (k : Key) (e : Entry) : Prop where
  entry : u.get? k = some e
  stored_iff : ∀ j, (u.get? j).isSome ↔ (t.get? j).isSome ∨ j = k ∨ j ∈ t.missing k
  made : ∀ j ∈ t.missing k, ∃ i ∈ t.registered k, i.parent = j ∧
    u.get? j = some (.directory (listedName? i).toList true)
  kept : ∀ j, (t.get? j).isSome → j ≠ k → u.get? j = t.get? j ∨
    (t.nearest? k = some j ∧ ∃ children listable s,
      t.get? j = some (.directory children listable) ∧
      (∃ i ∈ t.registered k, i.parent = j ∧ listedName? i = some s) ∧
      u.get? j = some (.directory (children ++ [s]) listable))

section Insert

variable (t : FileTree) (k : Key) (e : Entry)

/-- Under another key there is what there was, unless it is a parent that is written to. -/
theorem get?_register_set_cases {j : Key} (hj : j ≠ k) :
    ((t.set k e).register k).get? j = t.get? j ∨
      ∃ i ∈ t.registered k, i ≠ [.here] ∧ j = i.parent := by
  by_cases hparent : ∃ i ∈ t.registered k, i ≠ [.here] ∧ j = i.parent
  · exact Or.inr hparent
  · refine Or.inl ?_
    rw [get?_register_of_ne, get?_set, if_neg hj]
    rw [registered_set_self]
    exact fun i hi hdot heq => hparent ⟨i, hi, hdot, heq⟩

theorem get?_register_set_parent {i : Key} (hi : i ∈ t.registered k) (hdot : i ≠ [.here]) :
    ((t.set k e).register k).get? i.parent
      = some (((t.get? i.parent).getD (.directory [] true)).listing (listedName? i)) := by
  rw [get?_register_parent (by rw [registered_set_self]; exact hi) hdot, get?_set,
    if_neg (parent_ne_of_mem_registered hi hdot)]

theorem get?_register_set_self : ((t.set k e).register k).get? k = some e := by
  rw [get?_register_of_ne, get?_set, if_pos rfl]
  rw [registered_set_self]
  exact fun i hi hdot => (parent_ne_of_mem_registered hi hdot).symm

theorem register_set_made {j : Key} (hj : j ∈ t.missing k) :
    ∃ i ∈ t.registered k, i.parent = j ∧
      ((t.set k e).register k).get? j = some (.directory (listedName? i).toList true) := by
  obtain ⟨i, hi, hdot, rfl⟩ := exists_registered_of_mem_missing hj
  refine ⟨i, hi, rfl, ?_⟩
  rw [get?_register_set_parent t k e hi hdot, get?_eq_none_of_mem_missing hj, Option.getD_none,
    Entry.listing_empty]

/-- Of what was stored, only the nearest ancestor is written to. -/
theorem register_set_kept {j : Key} (hstored : (t.get? j).isSome) (hj : j ≠ k) :
    ((t.set k e).register k).get? j = t.get? j ∨
      (t.nearest? k = some j ∧ ∃ children listable s,
        t.get? j = some (.directory children listable) ∧
        (∃ i ∈ t.registered k, i.parent = j ∧ listedName? i = some s) ∧
        ((t.set k e).register k).get? j = some (.directory (children ++ [s]) listable)) := by
  rcases get?_register_set_cases t k e hj with hsame | ⟨i, hi, hdot, rfl⟩
  · exact Or.inl hsame
  · obtain ⟨e', he'⟩ := Option.isSome_iff_exists.mp hstored
    have hnearest : t.nearest? k = some i.parent := by
      refine (parent_of_mem_registered hi hdot).resolve_left fun hmissing => ?_
      exact absurd (he'.symm.trans (get?_eq_none_of_mem_missing hmissing)) (by simp)
    rw [get?_register_set_parent t k e hi hdot, he', Option.getD_some]
    rcases e'.listing_cases (listedName? i) with hsame | ⟨children, listable, s, rfl, hs, hmore⟩
    · exact Or.inl (congrArg some hsame)
    · exact Or.inr ⟨hnearest, children, listable, s, rfl, ⟨i, hi, rfl, hs⟩, congrArg some hmore⟩

theorem isSome_register_set_iff (j : Key) :
    (((t.set k e).register k).get? j).isSome ↔
      (t.get? j).isSome ∨ j = k ∨ j ∈ t.missing k := by
  by_cases hj : j = k
  · simp [hj, get?_register_set_self]
  · constructor
    · intro hstored
      rcases get?_register_set_cases t k e hj with hsame | ⟨i, hi, hdot, rfl⟩
      · exact Or.inl (hsame ▸ hstored)
      · rcases parent_of_mem_registered hi hdot with hmissing | hnearest
        · exact Or.inr (Or.inr hmissing)
        · exact Or.inl (isSome_of_nearest? hnearest)
    · rintro (hstored | hself | hmissing)
      · rcases register_set_kept t k e hstored hj with hsame | ⟨-, _, _, _, -, -, hmore⟩
        · rw [hsame]
          exact hstored
        · rw [hmore]
          rfl
      · exact absurd hself hj
      · obtain ⟨i, -, -, hget⟩ := register_set_made t k e hmissing
        rw [hget]
        rfl

theorem inserted_register : t.Inserted ((t.set k e).register k) k e where
  entry := t.get?_register_set_self k e
  stored_iff := t.isSome_register_set_iff k e
  made _ := t.register_set_made k e
  kept _ := t.register_set_kept k e

end Insert

/-! ## Calls inside one another -/

mutual

/-- Make a directory at `k` and link it into its parent, unless something is stored there. There
are at most as many calls inside one another as the first argument says. -/
def ensureWithin : Nat → FileTree → Key → Option FileTree
  | 0, _, _ => none
  | calls + 1, t, k =>
    if (t.get? k).isSome then some t else linkWithin calls (t.set k (.directory [] true)) k

/-- Ensure that the parent of `k` is there, and let it list `k`. -/
def linkWithin : Nat → FileTree → Key → Option FileTree
  | 0, _, _ => none
  | calls + 1, t, k =>
    if k.parent = k then some t else (ensureWithin calls t k.parent).map (·.enroll k)

end

/-- An insertion that is carried out with at most so many calls inside one another. -/
def insertWithin (calls : Nat) (t : FileTree) : Change → Option FileTree
  | .addFile p seconds => linkWithin calls (t.set p.key (.file seconds true)) p.key
  | .addDirectory p => ensureWithin calls t p.key
  | .addLink p target => linkWithin calls (t.set p.key (.link target)) p.key
  | _ => none

/-- Two calls for each directory that is made are enough, and two for the key itself. -/
theorem linkWithin_eq {calls : Nat} (h : 2 * (t.missing k).length + 2 ≤ calls) :
    linkWithin calls t k = some (t.register k) := by
  obtain ⟨calls, rfl⟩ := Nat.exists_eq_add_of_le' h
  fun_induction FileTree.register t k generalizing calls with
  | case1 t => rw [missing_dot, List.length_nil, linkWithin, if_pos (Key.parent_singleton _)]
  | case2 t k hk hparent =>
    have hself : k.parent ≠ k := mt Key.parent_eq_self_iff.mp hk
    rw [missing_of_stored hk hparent, List.length_nil, linkWithin, if_neg hself, ensureWithin,
      if_pos hparent]
    rfl
  | case3 t k hk hparent ih =>
    have hself : k.parent ≠ k := mt Key.parent_eq_self_iff.mp hk
    have hnone := Option.not_isSome_iff_eq_none.mp hparent
    rw [missing_set_self] at ih
    have hcalls : calls + (2 * (t.missing k).length + 2)
        = calls + (2 * (t.missing k.parent).length + 2) + 1 + 1 := by
      rw [missing_of_none hk hnone, List.length_cons]
      omega
    rw [hcalls, linkWithin, if_neg hself, ensureWithin, if_neg hparent, ih calls (by omega)]
    rfl

theorem ensureWithin_eq {calls : Nat} (hnone : t.get? k = none)
    (h : 2 * (t.missing k).length + 3 ≤ calls) :
    ensureWithin calls t k = some ((t.set k (.directory [] true)).register k) := by
  obtain ⟨calls, rfl⟩ := Nat.exists_eq_add_of_le' h
  have hstored : ¬ (t.get? k).isSome = true := by simp [hnone]
  rw [← Nat.add_assoc, ensureWithin, if_neg hstored, linkWithin_eq]
  rw [missing_set_self]
  omega

/-- The change inserts the entry into the tree: a file, a link, or a directory where nothing is
stored yet. -/
inductive Inserts (t : FileTree) : Change → Entry → Prop
  | addFile (p : Path) {seconds : Nat} :
      seconds ≤ maxSeconds → Inserts t (.addFile p seconds) (.file seconds true)
  | addDirectory {p : Path} :
      t.get? p.key = none → Inserts t (.addDirectory p) (.directory [] true)
  | addLink (p target : Path) : Inserts t (.addLink p target) (.link target)

/-- **An insertion ends, and disturbs one entry at most.** It makes its own key and the ancestors
before the first one that is stored, as directories with one name or none; of the entries that
were there, its own aside, only that nearest ancestor may change, by a name at the end of its list.
It takes two calls inside one another for each directory that is made, and three more. A directory
added where something is stored changes nothing. -/
theorem apply_insertion (t : FileTree) :
    (∀ c e, t.Inserts c e → ∃ u, t.apply c = .ok u ∧ t.Inserted u c.path.key e ∧
      ∀ calls, 2 * (t.missing c.path.key).length + 3 ≤ calls →
        insertWithin calls t c = some u) ∧
    ∀ p, (t.get? p.key).isSome → t.apply (.addDirectory p) = .ok t ∧
      ∀ calls, insertWithin (calls + 1) t (.addDirectory p) = some t := by
  refine ⟨fun c e h => ?_, fun p hstored => ⟨?_, fun calls => ?_⟩⟩
  · have hlink : ∀ calls, 2 * (t.missing c.path.key).length + 3 ≤ calls →
        linkWithin calls (t.set c.path.key e) c.path.key
          = some ((t.set c.path.key e).register c.path.key) := by
      intro calls hcalls
      refine linkWithin_eq ?_
      rw [missing_set_self]
      omega
    refine ⟨(t.set c.path.key e).register c.path.key, ?_, inserted_register t _ e, ?_⟩
    · cases h with
      | addFile p hseconds => exact addFile_eq_ok_iff.mpr ⟨hseconds, rfl⟩
      | @addDirectory p hnone =>
        show Except.ok (t.addDirectory p) = _
        rw [addDirectory, if_neg (by simp [hnone])]
        rfl
      | addLink => rfl
    · cases h with
      | addFile => exact hlink
      | addDirectory hnone => exact fun calls hcalls => ensureWithin_eq hnone hcalls
      | addLink => exact hlink
  · show Except.ok (t.addDirectory p) = _
    rw [addDirectory, if_pos hstored]
  · rw [insertWithin, ensureWithin, if_pos hstored]

/-- A tree with a file `a/d`. -/
def sprouting : FileTree := FileTree.new.insert (.ofBytes [97, 47, 100]) (.file 7 true)

/-- The file `a/b/c` comes with the directory `a/b`, in five calls inside one another. -/
theorem apply_insertion_sprouting :
    sprouting.missing (Path.ofBytes [97, 47, 98, 47, 99]).key = [(Path.ofBytes [97, 47, 98]).key] ∧
      ∃ u, sprouting.apply (.addFile (.ofBytes [97, 47, 98, 47, 99]) 5) = .ok u ∧
        sprouting.Inserted u (Path.ofBytes [97, 47, 98, 47, 99]).key (.file 5 true) ∧
        insertWithin 5 sprouting (.addFile (.ofBytes [97, 47, 98, 47, 99]) 5) = some u := by
  have hmissing : sprouting.missing (Path.ofBytes [97, 47, 98, 47, 99]).key
      = [(Path.ofBytes [97, 47, 98]).key] := by cbv
  have hinserts : sprouting.Inserts (.addFile (.ofBytes [97, 47, 98, 47, 99]) 5) (.file 5 true) :=
    .addFile _ (by decide)
  obtain ⟨u, hu, hinserted, hcalls⟩ := (apply_insertion sprouting).1 _ _ hinserts
  refine ⟨hmissing, u, hu, hinserted, hcalls 5 ?_⟩
  show 2 * (sprouting.missing (Path.ofBytes [97, 47, 98, 47, 99]).key).length + 3 ≤ 5
  rw [hmissing]
  decide

end FileTree

end PollWatch
