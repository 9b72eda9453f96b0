import Mathlib
import PollWatch.Proofs.FileTree.Names
import PollWatch.Proofs.FileTree.Unlinked
import PollWatch.Scan

/-!
# What is listed is there

As long as no entry vanishes behind the back of its parent, a directory lists only
what is stored:

> `Listed`: each name that a directory lists is the name of a stored entry whose
> parent it is.

From this, whatever is listed can be looked up, with one exception
(`found_of_list`). The entries at the top are listed by `.`, and a lookup in `.` puts a
dot in front of their names. So `.` may list a name under which nothing is found, because
the entry is stored without the dot: `not_found_of_list_dot`.
-/

namespace PollWatch

namespace FileTree

/-- The change does not delete an entry that stays listed. -/
def Change.KeepsListings : Change → Prop
  | .vanish _ => False
  | _ => True

/-- Each listed name is that of a stored entry, whose parent lists it. -/
def Listed (t : FileTree) : Prop :=
  ∀ k e, t.get? k = some e → ∀ s ∈ e.names,
    ∃ j, j.parent = k ∧ listedName? j = some s ∧ (t.get? j).isSome

theorem listed_new : Listed .new := by
  intro k e hk s hs
  obtain ⟨-, rfl⟩ := get?_new_eq_some_iff.mp hk
  exact absurd hs (by simp [Entry.names])

/-- An entry may be replaced by one all of whose names are those of stored entries. -/
theorem Listed.set {t : FileTree} (h : t.Listed) {k : Key} {e : Entry}
    (he : ∀ s ∈ e.names,
      ∃ j, j.parent = k ∧ listedName? j = some s ∧ ((t.set k e).get? j).isSome) :
    (t.set k e).Listed := by
  intro k' e' hget s hs
  rw [get?_set] at hget
  split at hget
  next hk =>
    obtain rfl := Option.some.inj hget
    rw [hk]
    exact he s hs
  next =>
    obtain ⟨j, hparent, hname, hstored⟩ := h k' e' hget s hs
    exact ⟨j, hparent, hname, isSome_get?_set hstored⟩

theorem Listed.set_of_names_eq_nil {t : FileTree} (h : t.Listed) (k : Key) {e : Entry}
    (he : e.names = []) : (t.set k e).Listed :=
  h.set fun s hs => absurd hs (by simp [he])

/-- A stored key may be enrolled. -/
theorem Listed.enroll {t : FileTree} (h : t.Listed) {k : Key} (hk : (t.get? k).isSome) :
    (t.enroll k).Listed := by
  have hkeep := t.grows_enroll k
  unfold FileTree.enroll at hkeep ⊢
  split
  next children listable s hget hs =>
    split
    next => exact h
    next hnot =>
      rw [hget, hs] at hkeep
      dsimp only at hkeep
      rw [if_neg hnot] at hkeep
      refine h.set fun s' hs' => ?_
      rcases List.mem_append.mp hs' with hold | hnew
      · obtain ⟨j, hparent, hname, hstored⟩ := h _ _ hget s' hold
        exact ⟨j, hparent, hname, (hkeep j).isSome hstored⟩
      · rw [List.mem_singleton.mp hnew]
        exact ⟨k, rfl, hs, (hkeep k).isSome hk⟩
  next => exact h

theorem Listed.register {t : FileTree} (h : t.Listed) {k : Key} (hk : (t.get? k).isSome) :
    (t.register k).Listed := by
  fun_induction FileTree.register t k with
  | case1 => exact h
  | case2 t k => exact h.enroll hk
  | case3 t k _ hparent ih =>
    have hnone : t.get? k.parent = none := Option.not_isSome_iff_eq_none.mp hparent
    have hmade : ((t.set k.parent (.directory [] true)).get? k.parent).isSome := by
      rw [get?_set, if_pos rfl]
      rfl
    have hgrows := (grows_set_empty hnone).trans (grows_register _ k.parent)
    exact (ih (h.set_of_names_eq_nil k.parent rfl) hmade).enroll ((hgrows k).isSome hk)

theorem Listed.insert {t : FileTree} (h : t.Listed) (p : Path) {e : Entry} (he : e.names = []) :
    (t.insert p e).Listed := by
  refine (h.set_of_names_eq_nil p.key he).register ?_
  rw [get?_set, if_pos rfl]
  rfl

/-- An entry is gone, and so is its name from the list of its parent. -/
theorem Listed.of_deleted {t u : FileTree} (h : t.Listed) {k : Key}
    (hkept : ∀ j, j ≠ k → (t.get? j).isSome → (u.get? j).isSome)
    (hnames : ∀ d e s, u.get? d = some e → s ∈ e.names →
      (∃ e', t.get? d = some e' ∧ s ∈ e'.names) ∧ ¬ (d = k.parent ∧ listedName? k = some s)) :
    u.Listed := by
  intro d e hget s hs
  obtain ⟨⟨e', hget', hs'⟩, hnot⟩ := hnames d e s hget hs
  obtain ⟨j, hparent, hname, hstored⟩ := h d e' hget' s hs'
  refine ⟨j, hparent, hname, hkept j ?_ hstored⟩
  rintro rfl
  exact hnot ⟨hparent.symm, hname⟩

theorem isSome_get?_erase {t : FileTree} {k j : Key} (hj : j ≠ k) (h : (t.get? j).isSome) :
    ((t.erase k).get? j).isSome := by
  rw [get?_erase, if_neg hj]
  exact h

theorem Listed.apply {t u : FileTree} (h : t.Listed) {c : Change} (hc : c.KeepsListings)
    (hu : t.apply c = .ok u) : u.Listed := by
  cases applied_of_apply hu with
  | kept => exact h
  | addFile p => exact h.insert p rfl
  | @addDirectory p => exact h.insert p rfl
  | addLink p => exact h.insert p rfl
  | @rewritten _ e e' _ hget he =>
    refine h.set fun s hs => ?_
    have hs' : s ∈ e.names := by
      cases he with
      | file => exact hs
      | directory => exact hs
    obtain ⟨j, hparent, hname, hstored⟩ := h _ e hget s hs'
    exact ⟨j, hparent, hname, isSome_get?_set hstored⟩
  | vanish => exact absurd hc id
  | @unlisted p children listable s hget hs =>
    refine h.of_deleted (k := p.key)
      (fun j hj hstored => isSome_get?_set (isSome_get?_erase hj hstored)) fun d e s' hd hs' => ?_
    rw [get?_set] at hd
    split at hd
    next hdp =>
      obtain rfl := Option.some.inj hd
      obtain ⟨hmem, hne⟩ := List.mem_filter.mp hs'
      have hold : t.get? d = some (.directory children listable) := by
        rw [hdp]
        exact get?_of_get?_erase hget
      refine ⟨⟨_, hold, hmem⟩, ?_⟩
      rintro ⟨-, hname⟩
      obtain rfl := Option.some.inj (hs.symm.trans hname)
      exact absurd hne (by simp)
    next hdp => exact ⟨⟨e, get?_of_get?_erase hd, hs'⟩, fun hand => hdp hand.1⟩
  | @remove p hnot =>
    refine h.of_deleted (k := p.key) (fun j hj hstored => isSome_get?_erase hj hstored)
      fun d e s hd hs => ⟨⟨e, get?_of_get?_erase hd, hs⟩, ?_⟩
    rintro ⟨rfl, hname⟩
    cases e with
    | directory children listable => exact hnot children listable s hd hname
    | file => exact absurd hs (by simp [Entry.names])
    | link => exact absurd hs (by simp [Entry.names])

theorem ReachableBy.listed {allowed : FileTree → Change → Prop}
    (hallowed : ∀ t c, allowed t c → c.KeepsListings) {t : FileTree} (h : t.ReachableBy allowed) :
    t.Listed := by
  induction h with
  | new => exact listed_new
  | change _ hc hu ih => exact ih.apply (hallowed _ _ hc) hu

/-! ## Looking up what is listed -/

/-- A listed name is that of an entry stored below the directory, or at the top. -/
theorem stored_of_list {t : FileTree} (ht : t.Unlinked) (horderly : t.Orderly)
    (hlisted : t.Listed) {d c : Path} {entries : List Path} (hlist : t.list d = .ok entries)
    (hc : c ∈ entries) :
    ∃ s, c = d.child s ∧ ((t.get? c.key).isSome ∨
      (d.key = [.here] ∧ (t.get? (⟨s, []⟩ : Path).key).isSome)) := by
  obtain ⟨children, hget, rfl⟩ := ht.list_eq_ok_iff.mp hlist
  obtain ⟨s, hs, rfl⟩ := List.mem_map.mp hc
  have hord : s.IsOrdinary := (horderly _ _ hget).ordinary s hs
  obtain ⟨j, hparent, hname, hstored⟩ := hlisted _ _ hget s hs
  refine ⟨s, rfl, ?_⟩
  rcases Key.eq_of_listedName? hname with hj | ⟨hdot, hj⟩
  · left
    rw [Path.key_child d hord, ← hparent, ← hj]
    exact hstored
  · right
    rw [Path.key_single (Segment.component?_of_isOrdinary hord), ← hj]
    exact ⟨hparent.symm.trans hdot, hstored⟩

/-- **What a directory lists can be looked up**, unless the directory is `.`: in a tree without
links, no entry of which ever vanished. What `.` lists is found as it is listed, or else without
the dot in front. -/
theorem found_of_list {t : FileTree}
    (ht : t.ReachableBy fun _ c => c.AddsNoLink ∧ c.KeepsListings) {d : Path}
    {entries : List Path} (hlist : t.list d = .ok entries) :
    (d.key ≠ [.here] → ∀ c ∈ entries, t.Found c) ∧
      ∀ c ∈ entries, t.Found c ∨ ∃ s, c = d.child s ∧ t.Found ⟨s, []⟩ := by
  have hunlinked : t.Unlinked := ht.unlinked fun _ _ h => h.1
  have hlisted : t.Listed := ht.listed fun _ _ h => h.2
  have horderly : t.Orderly := ht.reachable.orderly
  constructor
  · intro hd c hc
    obtain ⟨s, -, hstored | ⟨hdot, -⟩⟩ := stored_of_list hunlinked horderly hlisted hlist hc
    · exact hunlinked.found_iff.mpr hstored
    · exact absurd hdot hd
  · intro c hc
    obtain ⟨s, hcs, hstored | ⟨-, hstored⟩⟩ := stored_of_list hunlinked horderly hlisted hlist hc
    · exact Or.inl (hunlinked.found_iff.mpr hstored)
    · exact Or.inr ⟨s, hcs, hunlinked.found_iff.mpr hstored⟩

/-- A file `a/b` of five seconds. -/
def shelved : FileTree := FileTree.new.insert (.ofBytes [97, 47, 98]) (.file 5 true)

theorem reachableBy_shelved :
    shelved.ReachableBy fun _ c => c.AddsNoLink ∧ c.KeepsListings :=
  .change (c := .addFile _ 5) .new ⟨trivial, trivial⟩ rfl

theorem found_of_list_shelved :
    shelved.ReachableBy (fun _ c => c.AddsNoLink ∧ c.KeepsListings) ∧
      shelved.list (.ofBytes [97]) = .ok [.ofBytes [97, 47, 98]] ∧
      shelved.Found (.ofBytes [97, 47, 98]) := by
  have hlist : shelved.list (.ofBytes [97]) = .ok [.ofBytes [97, 47, 98]] := by cbv
  refine ⟨reachableBy_shelved, hlist, ?_⟩
  exact (found_of_list reachableBy_shelved hlist).1 (by decide) _ (List.mem_singleton_self _)

/-- The directory `.` lists `./a` where `a` is stored, and nothing is found under `./a`. So
whoever watches `.` does not see the file. -/
theorem not_found_of_list_dot :
    shelved.ReachableBy (fun _ c => c.AddsNoLink ∧ c.KeepsListings) ∧
      shelved.list .dot = .ok [.ofBytes [46, 47, 97]] ∧
      ¬ shelved.Found (.ofBytes [46, 47, 97]) ∧
      shelved.view.latest [.dot] = .zero := by
  have hunlinked : shelved.Unlinked := reachableBy_shelved.unlinked fun _ _ h => h.1
  have hnone : shelved.get? (Path.ofBytes [46, 47, 97]).key = none := by cbv
  refine ⟨reachableBy_shelved, by cbv, ?_, by cbv⟩
  rw [hunlinked.found_iff, hnone]
  exact Bool.false_ne_true

end FileTree

end PollWatch
