import Mathlib
import PollWatch.Proofs.FileTree.Ancestors
import PollWatch.Proofs.FileTree.Listed

/-!
# Parents and children

Two relations tie the keys of a tree to the names that its directories list.

Downward: whatever the changes were, a directory lists each name once, and each name adds one
ordinary component to the place of the directory (`Key.Lists`, `Reachable.orderly`). So what
a directory lists are different paths, and the directory is the parent of each.

Upward: as long as nothing is deleted, the parent of whatever is stored is stored as well, and
lists it if it is a directory (`Settled`). A file or a link may come to stand in place of a
directory that has entries below it; then it is their parent, and lists nothing.

> `orderly_and_held`: both, for every tree that changes lead to.
-/

namespace PollWatch

namespace FileTree

variable {t u : FileTree}

/-! ## Downward -/

/-- The paths that a directory lists name different places, one component below it. -/
theorem Orderly.of_list (h : t.Orderly) {d : Path} {entries : List Path}
    (hlist : t.list d = .ok entries) :
    (entries.map Path.key).Nodup ∧
      ∀ c ∈ entries, c.key.parent = d.key ∧ ∃ s, c.key = d.key ++ [.name s] := by
  obtain ⟨q, children, hq, hget, rfl⟩ := list_eq_ok_iff.mp hlist
  have hlists : q.key.Lists children := h _ _ hget
  have hkey : ∀ s ∈ children, (d.child s).key = d.key ++ [.name s] :=
    fun s hs => Path.key_child d (hlists.ordinary s hs)
  constructor
  · have hkeys : (children.map d.child).map Path.key
        = children.map fun s => d.key ++ [.name s] := by
      rw [List.map_map]
      exact List.map_congr_left hkey
    rw [hkeys]
    refine hlists.nodup.map fun a b hab => ?_
    simpa using hab
  · intro c hc
    obtain ⟨s, hs, rfl⟩ := List.mem_map.mp hc
    have hd : d.key ≠ [] := by
      intro hnil
      -- the empty path leads to itself, and what is stored there lists nothing
      obtain ⟨n, -, hlead⟩ := resolve?_eq_some_iff.mp hq
      have hself : t.LeadsTo d 0 .empty := by
        unfold LeadsTo
        rw [hnil]
        exact .nil
      obtain ⟨-, rfl⟩ := Expands.unique hlead hself
      exact hlists.ne_nil (List.ne_nil_of_mem hs) rfl
    rw [hkey s hs]
    exact ⟨Key.parent_concat hd _, s, rfl⟩

/-! ## Upward -/

/-- The change is not the deletion of an entry. -/
def Change.DeletesNothing : Change → Prop
  | .vanish _ => False
  | .remove _ => False
  | _ => True

/-- Whatever is stored is held by its parent; only `.` has none. -/
def Settled (t : FileTree) : Prop := ∀ k, k ≠ [.here] → (t.get? k).isSome → t.Held k

theorem settled_new : Settled .new := by
  intro k hk hstored
  obtain ⟨e, he⟩ := Option.isSome_iff_exists.mp hstored
  exact absurd (get?_new_eq_some_iff.mp he).1 hk

theorem Settled.insert (h : t.Settled) {p : Path} {e : Entry}
    (he : (∀ children listable, e ≠ .directory children listable) ∨ t.get? p.key = none) :
    (t.insert p e).Settled :=
  fun k hk hstored => held_insert he hk hstored fun hold _ => h k hk hold

theorem Settled.apply (h : t.Settled) {c : Change} (hc : c.DeletesNothing)
    (hu : t.apply c = .ok u) : u.Settled := by
  cases applied_of_apply hu with
  | kept => exact h
  | addFile => exact h.insert (Or.inl (by simp))
  | addDirectory hnone => exact h.insert (Or.inr hnone)
  | addLink => exact h.insert (Or.inl (by simp))
  | rewritten _ hget he =>
    intro k hk hstored
    have hold := isSome_of_get?_set (by rw [hget]; rfl) hstored
    exact (h k hk hold).rewrite hget he
  | vanish => exact absurd hc id
  | unlisted => exact absurd hc id
  | remove => exact absurd hc id

theorem ReachableBy.settled {allowed : FileTree → Change → Prop}
    (hallowed : ∀ t c, allowed t c → c.DeletesNothing) (h : t.ReachableBy allowed) :
    t.Settled := by
  induction h with
  | new => exact settled_new
  | change _ hc hu ih => exact ih.apply (hallowed _ _ hc) hu

/-- **Parents and children.** In every tree that changes lead to, a directory lists no name twice,
each name is a single ordinary component, and what a listing gives are paths to different places
whose parent is the directory that was listed. If nothing was ever deleted, the parent of whatever
is stored is stored, and if that is a directory it lists every entry whose name is text. -/
theorem orderly_and_held (ht : t.Reachable) :
    (∀ k children listable, t.get? k = some (.directory children listable) →
      children.Nodup ∧ ∀ s ∈ children, (⟨s, []⟩ : Path).key = [.name s]) ∧
    (∀ d entries, t.list d = .ok entries →
      (entries.map Path.key).Nodup ∧
        ∀ c ∈ entries, c.key.parent = d.key ∧ ∃ s, c.key = d.key ++ [.name s]) ∧
    (t.ReachableBy (fun _ c => c.DeletesNothing) →
      ∀ k, (t.get? k).isSome →
        (k ≠ [.here] → (t.get? k.parent).isSome) ∧
        ∀ s, k.getLast? = some (.name s) → (Bytes.text? s.bytes).isSome →
          ∀ children listable, t.get? k.parent = some (.directory children listable) →
            s ∈ children) := by
  refine ⟨fun k children listable hget => ?_, fun d entries => ht.orderly.of_list,
    fun hby k hstored => ⟨fun hk => ?_, fun s hlast htext children listable hget => ?_⟩⟩
  · have hlists : k.Lists children := ht.orderly _ _ hget
    exact ⟨hlists.nodup, fun s hs =>
      Path.key_single (Segment.component?_of_isOrdinary (hlists.ordinary s hs))⟩
  · exact ((hby.settled fun _ _ h => h) k hk hstored).stored
  · obtain ⟨j, rfl⟩ := List.getLast?_eq_some_iff.mp hlast
    have hk : (j ++ [.name s] : Key) ≠ [.here] := by
      intro heq
      rw [heq] at hlast
      exact absurd hlast (by simp)
    exact ((hby.settled fun _ _ h => h) _ hk hstored).listed children listable hget s
      (Key.listedName?_concat j htext)

/-- A file `a/b/c`, above which a link then took the place of `a/b`, and a file `a/d` that was
denied. -/
def relinked : FileTree :=
  (((FileTree.new.insert (.ofBytes [97, 47, 98, 47, 99]) (.file 5 true)).addLink
    (.ofBytes [97, 47, 98]) (.ofBytes [101])).insert (.ofBytes [97, 47, 100]) (.file 7 true)).deny
      (.ofBytes [97, 47, 100])

theorem reachableBy_relinked : relinked.ReachableBy fun _ c => c.DeletesNothing :=
  .change (c := .deny _) (.change (c := .addFile _ 7) (.change (c := .addLink _ _)
    (.change (c := .addFile _ 5) .new trivial rfl) trivial rfl) trivial rfl) trivial rfl

theorem orderly_and_held_relinked :
    relinked.Reachable ∧
      relinked.list (.ofBytes [97]) = .ok [.ofBytes [97, 47, 98], .ofBytes [97, 47, 100]] ∧
      (Path.ofBytes [97, 47, 100]).key.parent = (Path.ofBytes [97]).key ∧
      (relinked.get? (Path.ofBytes [97, 47, 98, 47, 99]).key.parent).isSome := by
  have hlist : relinked.list (.ofBytes [97])
      = .ok [.ofBytes [97, 47, 98], .ofBytes [97, 47, 100]] := by cbv
  have hstored : (relinked.get? (Path.ofBytes [97, 47, 98, 47, 99]).key).isSome := by cbv
  have hreach : relinked.Reachable := reachableBy_relinked.reachable
  obtain ⟨-, hdown, hup⟩ := orderly_and_held hreach
  refine ⟨hreach, hlist, ?_, ?_⟩
  · exact ((hdown _ _ hlist).2 _ (List.mem_cons_of_mem _ (List.mem_singleton_self _))).1
  · exact (hup reachableBy_relinked _ hstored).1 (by decide)

end FileTree

end PollWatch
