import Mathlib.Data.List.Nodup
import PollWatch.Proofs.FileTree.Applied
import PollWatch.Proofs.FileTree.Growth
import PollWatch.Proofs.Path.Join

/-!
# The trees that changes lead to

A tree is *reachable* when some sequence of changes makes it out of the new tree.
Whatever the changes were, the names that a directory lists are in order:

> `Reachable.orderly`: a directory lists no name twice, and none that is empty, `.` or `..`.

The names come from the last components of stored keys, and every key comes from
a path, which drops empty segments and dots. So a listed name, put after any
spelling of the directory, adds exactly one component to its key.

`ReachableBy` is about trees whose history is restricted: each change has to be allowed
where it is made.
-/

namespace PollWatch

/-- The names in a key are ordinary, as they are in the key of any path. -/
def Key.NamesOrdinary (k : Key) : Prop := ∀ s, Component.name s ∈ k → s.IsOrdinary

theorem Path.namesOrdinary_key (p : Path) : p.key.NamesOrdinary :=
  fun _ h => isOrdinary_of_mem_key h

theorem Key.NamesOrdinary.parent {k : Key} (h : k.NamesOrdinary) : k.parent.NamesOrdinary := by
  intro s hs
  unfold Key.parent at hs
  split at hs
  next => exact absurd hs (by simp)
  next => exact h s (List.dropLast_subset k hs)

theorem Key.NamesOrdinary.isOrdinary {k : Key} {s : Segment} (h : k.NamesOrdinary)
    (hs : FileTree.listedName? k = some s) : s.IsOrdinary := by
  have hlast : k.lastName? = some s := (Option.filter_eq_some_iff.mp hs).1
  unfold Key.lastName? at hlast
  split at hlast
  next s' hk =>
    obtain rfl := Option.some.inj hlast
    exact h s' (List.mem_of_getLast? hk)
  next => exact absurd hlast (by simp)

/-- A list of names that the directory at `k` may have. Only the empty path has no components, and
no directory there lists anything, because what has no directory in front of it belongs to `.`. -/
structure Key.Lists (k : Key) (names : List Segment) : Prop where
  nodup : names.Nodup
  ordinary : ∀ s ∈ names, s.IsOrdinary
  ne_nil : names ≠ [] → k ≠ []

theorem Key.lists_nil (k : Key) : k.Lists [] where
  nodup := List.nodup_nil
  ordinary _ hs := absurd hs List.not_mem_nil
  ne_nil h := absurd rfl h

theorem Key.parent_ne_nil (k : Key) : k.parent ≠ [] := by
  unfold Key.parent
  split
  next => simp
  next h => exact h

theorem Key.Lists.concat {k : Key} {names : List Segment} {s : Segment}
    (h : k.parent.Lists names) (hs : s.IsOrdinary) (hnew : s ∉ names) :
    k.parent.Lists (names ++ [s]) where
  nodup := List.nodup_append.mpr ⟨h.nodup, List.nodup_singleton s, fun a ha b hb hab => by
    rw [List.mem_singleton.mp hb] at hab
    exact hnew (hab ▸ ha)⟩
  ordinary a ha := by
    rcases List.mem_append.mp ha with hold | hadded
    · exact h.ordinary a hold
    · rw [List.mem_singleton.mp hadded]
      exact hs
  ne_nil _ := k.parent_ne_nil

theorem Key.Lists.filter {k : Key} {names : List Segment} (h : k.Lists names)
    (p : Segment → Bool) : k.Lists (names.filter p) where
  nodup := h.nodup.filter p
  ordinary s hs := h.ordinary s (List.mem_filter.mp hs).1
  ne_nil hne := h.ne_nil fun hnil => hne (by rw [hnil]; rfl)

namespace FileTree

variable {t u : FileTree}

/-- Trees that come from the new one by changes. A change that overflows makes no tree. -/
inductive Reachable : FileTree → Prop
  | new : Reachable .new
  | change {t u : FileTree} (c : Change) : Reachable t → t.apply c = .ok u → Reachable u

/-! ## Orderly lists -/

/-- Every list of names is one that the directory under its key may have. -/
def Orderly (t : FileTree) : Prop := ∀ k e, t.get? k = some e → k.Lists e.names

theorem orderly_new : Orderly .new := by
  intro k e hk
  obtain ⟨-, rfl⟩ := get?_new_eq_some_iff.mp hk
  exact k.lists_nil

theorem Orderly.erase (h : t.Orderly) (k : Key) : (t.erase k).Orderly :=
  fun j e hj => h j e (get?_of_get?_erase hj)

theorem Orderly.set (h : t.Orderly) {k : Key} {e : Entry} (he : k.Lists e.names) :
    (t.set k e).Orderly := by
  intro j e' hj
  rw [get?_set] at hj
  split at hj
  next hjk =>
    obtain rfl := Option.some.inj hj
    rw [hjk]
    exact he
  next => exact h j e' hj

theorem Orderly.enroll (h : t.Orderly) {k : Key} (hk : k.NamesOrdinary) :
    (t.enroll k).Orderly := by
  unfold FileTree.enroll
  split
  next children listable s hget hs =>
    split
    next => exact h
    next hnew =>
      have hold : k.parent.Lists children := h _ _ hget
      exact h.set (hold.concat (hk.isOrdinary hs) hnew)
  next => exact h

theorem Orderly.register (h : t.Orderly) {k : Key} (hk : k.NamesOrdinary) :
    (t.register k).Orderly := by
  fun_induction FileTree.register t k with
  | case1 => exact h
  | case2 t k => exact h.enroll hk
  | case3 t k _ _ ih =>
    -- the parent that is made up lists nothing yet
    have hmade := h.set (e := .directory [] true) k.parent.lists_nil
    exact (ih hmade hk.parent).enroll hk

theorem Orderly.insert (h : t.Orderly) (p : Path) {e : Entry} (he : e.names = []) :
    (t.insert p e).Orderly := by
  refine (h.set ?_).register p.namesOrdinary_key
  rw [he]
  exact p.key.lists_nil

theorem Orderly.apply (h : t.Orderly) {c : Change} (hu : t.apply c = .ok u) : u.Orderly := by
  cases applied_of_apply hu with
  | kept => exact h
  | addFile p => exact h.insert p rfl
  | @addDirectory p => exact h.insert p rfl
  | addLink p => exact h.insert p rfl
  | rewritten _ hget he =>
    have hold := h _ _ hget
    refine h.set ?_
    cases he with
    | file => exact hold
    | directory => exact hold
  | vanish p => exact h.erase p.key
  | @unlisted p children listable s hget =>
    -- the parent is read from the tree that lacks the entry
    have hold : p.key.parent.Lists children := h.erase p.key _ _ hget
    exact (h.erase p.key).set (hold.filter _)
  | @remove p => exact h.erase p.key

theorem Reachable.orderly (h : t.Reachable) : t.Orderly := by
  induction h with
  | new => exact orderly_new
  | change c _ hu ih => exact ih.apply hu

/-! ## Changes that can be made -/

/-- The times that a change sets can be held by a system time. -/
def Change.Fits : Change → Prop
  | .addFile _ seconds => seconds ≤ maxSeconds
  | .setModified _ seconds => seconds ≤ maxSeconds
  | _ => True

/-- Such a change can be applied to any tree. -/
theorem Change.Fits.apply {c : Change} (h : c.Fits) (t : FileTree) : ∃ u, t.apply c = .ok u := by
  cases c with
  | addFile p seconds => exact ⟨_, if_neg (Nat.not_lt.mpr h)⟩
  | setModified p seconds =>
    simp only [FileTree.apply, FileTree.setModified]
    split
    next => exact ⟨_, if_neg (Nat.not_lt.mpr h)⟩
    next => exact ⟨t, rfl⟩
  | _ => exact ⟨_, rfl⟩

/-! ## Restricted histories -/

/-- Trees that come from the new one by changes each of which was allowed where it was made. -/
inductive ReachableBy (allowed : FileTree → Change → Prop) : FileTree → Prop
  | new : ReachableBy allowed .new
  | change {t u : FileTree} {c : Change} :
      ReachableBy allowed t → allowed t c → t.apply c = .ok u → ReachableBy allowed u

theorem ReachableBy.reachable {allowed : FileTree → Change → Prop} {t : FileTree}
    (h : t.ReachableBy allowed) : t.Reachable := by
  induction h with
  | new => exact .new
  | change _ _ hu ih => exact .change _ ih hu

theorem ReachableBy.mono {allowed allowed' : FileTree → Change → Prop}
    (hmono : ∀ t c, allowed t c → allowed' t c) {t : FileTree} (h : t.ReachableBy allowed) :
    t.ReachableBy allowed' := by
  induction h with
  | new => exact .new
  | change _ hc hu ih => exact .change ih (hmono _ _ hc) hu

end FileTree

end PollWatch
