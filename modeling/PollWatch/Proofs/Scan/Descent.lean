import PollWatch.Proofs.FileTree.Ancestors
import PollWatch.Proofs.Scan.Reached

/-!
# Seeing a file from above

Where there are no links, a scan looks at every place it reaches under the key of that
place. So a file below a watched directory is seen if the directories in between lead
down to it, each of them listing the next:

> `Unlinked.exists_observed`: then the report shows the file with its time.

For a file that was just added, this is a matter of what stood above it before.

> `found_from_above`: the added file can be found from all directories above it if and only
> if those that were there before could be found themselves. So it is as long as deletions
> spare whatever has entries below it.

Other deletions leave entries behind that are above the new file and that nothing
leads to. The registration of the file stops at them: `not_found_from_above`.
-/

namespace PollWatch.FileTree

/-- From `j` down to `k`, every directory may be listed, and lists the next name on the way. -/
def LeadsDown (t : FileTree) (j k : Key) : Prop :=
  ∀ (i : Key) s, j <+: i → i ++ [.name s] <+: k →
    ∃ children, t.get? i = some (.directory children true) ∧ s ∈ children

variable {t u : FileTree} {watched : List Path}

/-- Going down from a path that is reached, each directory lists the next. The induction is on
the components that are left to go. -/
theorem Unlinked.exists_reaches (h : t.Unlinked) {p : Path} {k : Key} (hk : k.Textual)
    (hp : t.view.Reaches watched p) (hbelow : p.key <+: k) (hdown : t.LeadsDown p.key k) :
    ∃ q, t.view.Reaches watched q ∧ q.key = k := by
  obtain ⟨l, rfl⟩ := hbelow
  induction l generalizing p with
  | nil => exact ⟨p, hp, (List.append_nil _).symm⟩
  | cons c l ih =>
    have hc : c.IsTextual := hk.2 c (List.mem_append_right _ (List.mem_cons_self ..))
    cases c with
    | root => exact absurd hc id
    | here => exact absurd hc id
    | up => exact absurd hc id
    | name s =>
      have hsplit : p.key ++ .name s :: l = (p.child s).key ++ l := by
        rw [Path.key_child p hc.1, List.append_assoc]
        rfl
      obtain ⟨children, hget, hs⟩ :=
        hdown p.key s List.prefix_rfl ⟨l, List.append_assoc ..⟩
      have hdir : (t.view.directory? p).isSome :=
        Option.isSome_iff_exists.mpr
          ⟨_, h.directory?_eq_some_iff.mpr ⟨rfl, children, true, hget⟩⟩
      have hlist : t.view.list p = .ok (children.map p.child) :=
        h.list_eq_ok_iff.mpr ⟨children, hget, rfl⟩
      have hchild : t.view.Reaches watched (p.child s) :=
        .entry hp hdir hlist (List.mem_map_of_mem hs)
      rw [hsplit] at hk hdown ⊢
      refine ih hchild hk fun i s' hi hnext => hdown i s' ?_ hnext
      exact (Path.key_prefix_child p s).trans hi

theorem Unlinked.linksSuffice (h : t.Unlinked) (watched : List Path) : t.LinksSuffice watched := by
  intro f _
  left
  rw [h.resolve?]
  rfl

/-- Every place that is reached is looked at. -/
theorem Unlinked.exists_finding (h : t.Unlinked) (ht : t.Reachable) {p : Path}
    (hp : t.view.Reaches watched p) : ∃ f ∈ t.view.scan watched, f.path.key = p.key := by
  have hlead := leadsTo_straight (h.plain p.key)
  obtain ⟨f, hf, m, q, hq, hkey⟩ :=
    covers_of_reaches ht (h.linksSuffice watched) hp 0 _ hlead
  obtain ⟨-, rfl⟩ := Expands.unique hq (leadsTo_straight (h.plain f.path.key))
  rw [key_straight, key_straight] at hkey
  exact ⟨f, hf, hkey⟩

/-- A readable file is seen from a watched path if the directories in between lead down to it. -/
theorem Unlinked.exists_observed (h : t.Unlinked) (ht : t.Reachable) {w : Path}
    (hw : w ∈ watched) {k : Key} {seconds : Nat} (hk : k.Textual) (hbelow : w.key <+: k)
    (hdown : t.LeadsDown w.key k) (hget : t.get? k = some (.file seconds true)) :
    ∃ p : Path, p.key = k ∧
      .observed p ⟨seconds * Timestamp.perSecond⟩ ∈ (t.view.report watched).entries := by
  obtain ⟨q, hq, rfl⟩ := h.exists_reaches hk (.watched hw) hbelow hdown
  obtain ⟨f, hf, hkey⟩ := h.exists_finding ht hq
  rw [← hkey] at hget
  have hfile : t.isDirectory f.path = false := h.isDirectory_eq_false hget
  have hmod : t.view.modified f.path = .ok (seconds * Timestamp.perSecond : Nat) :=
    (h.modified_eq_ok_iff hfile).mpr ⟨seconds, hget, rfl⟩
  have htime : f.modified? = some ⟨seconds * Timestamp.perSecond⟩ :=
    (View.modified?_of_mem_scan hf).mpr ⟨isDirectory_eq_false_iff.mp hfile, hmod⟩
  have hobserved := Finding.modified?_eq_some_iff.mp htime
  exact ⟨f.path, hkey, List.mem_filter.mpr ⟨hobserved ▸ hf, rfl⟩⟩

/-! ## Files that were just added -/

theorem exists_path_of_textual {k : Key} (hk : k.Textual) : ∃ p : Path, p.key = k :=
  ⟨straight k, key_foldl_extend hk.component? .empty⟩

/-- Where the directories in between may be listed, what lists down to `k` leads down there. -/
theorem leadsDown_of_listsDownTo {j k : Key} (hj : j ≠ []) (hdown : t.ListsDownTo k)
    (hlist : ∀ i : Key, j <+: i → i.IsAncestor k → ∀ children listable,
      t.get? i = some (.directory children listable) → listable = true) : t.LeadsDown j k := by
  intro i s hi hnext
  have hne : i ≠ [] := by
    rintro rfl
    exact hj (List.prefix_nil.mp hi)
  have hancestor : i.IsAncestor k := (Key.isAncestor_concat hne _).trans_begins hnext
  obtain ⟨children, listable, hget, hs⟩ := hdown i s hne hnext
  obtain rfl := hlist i hi hancestor children listable hget
  exact ⟨children, hget, hs⟩

/-- **An added file can be found from above** if and only if all that was stored above it could be
found: then each directory above it is there and lists the next. That holds if deletions spared
what had entries below it. A file that can be found is seen from every directory above it, if
the directories in between may be listed. -/
theorem found_from_above {p : Path} {seconds : Nat}
    (ht : t.ReachableBy fun _ c => c.AddsNoLink) (hp : p.key.Textual)
    (hfiles : ∀ j, j.IsAncestor p.key → ∀ n readable, t.get? j ≠ some (.file n readable))
    (hu : t.addFile p seconds = .ok u) :
    (u.ListsDownTo p.key ↔ t.ListsDownAbove p.key) ∧
      ((t.ReachableBy fun t c => c.AddsNoLink ∧ t.Spares c) → u.ListsDownTo p.key) ∧
      (u.ListsDownTo p.key → ∀ a : Path, a.key.IsAncestor p.key →
        u.isDirectory a = true ∧
          ((∀ d : Path, a.key <+: d.key → d.key.IsAncestor p.key →
              ∃ entries, u.list d = .ok entries) →
            ∃ q : Path, q.key = p.key ∧
              .observed q ⟨seconds * Timestamp.perSecond⟩ ∈ (u.view.report [a]).entries)) := by
  have hunlinked : t.Unlinked := ht.unlinked fun _ _ h => h
  have hdir := hunlinked.onlyDirectoriesAbove hfiles
  have hreachable : u.Reachable := .change (.addFile p seconds) ht.reachable hu
  obtain ⟨-, rfl⟩ := addFile_eq_ok_iff.mp hu
  have hiff := listsDownTo_insert_iff hp hdir (.file seconds true)
  refine ⟨hiff, fun hspared => hiff.mpr fun j hj hstored => ?_, fun hdown a ha => ⟨?_, ?_⟩⟩
  · have hholds : t.HoldsTextual := hspared.holdsTextual fun _ _ h => h.2
    exact hholds.listsDownTo (hp.of_isAncestor hj) hstored
      fun i hi => hdir i (hi.trans_begins hj.begins)
  · obtain ⟨s, hnext⟩ := ha.exists_next hp
    obtain ⟨children, listable, hget, -⟩ := hdown a.key s ha.ne_nil hnext
    exact (hunlinked.insert p (by simp)).isDirectory_iff.mpr ⟨children, listable, hget⟩
  · intro hlist
    have hunlinked' := hunlinked.insert p (e := .file seconds true) (by simp)
    have hget : (t.insert p (.file seconds true)).get? p.key = some (.file seconds true) :=
      (t.get?_insert_eq_some_iff p _ _ (by simp)).mpr (if_pos rfl)
    have hlead : (t.insert p (.file seconds true)).LeadsDown a.key p.key := by
      refine leadsDown_of_listsDownTo ha.ne_nil hdown
        fun (i : Key) hi hancestor children listable hd => ?_
      obtain ⟨d, rfl⟩ := exists_path_of_textual (hp.of_isAncestor hancestor)
      obtain ⟨entries, hentries⟩ := hlist d hi hancestor
      obtain ⟨children', hd', -⟩ := hunlinked'.list_eq_ok_iff.mp hentries
      rw [hd] at hd'
      exact (Entry.directory.inj (Option.some.inj hd')).2
    exact hunlinked'.exists_observed hreachable (List.mem_singleton_self a) hp ha.begins hlead hget

/-- No entry is directly below a key if no stored key has it as all but its last component. -/
theorem get?_concat_eq_none {k : Key} (h : k ∉ t.entries.map (·.1.dropLast)) (c : Component) :
    t.get? (k ++ [c]) = none := by
  cases hget : t.get? (k ++ [c]) with
  | none => rfl
  | some e =>
    refine absurd (List.mem_map.mpr ⟨_, mem_of_get? hget, ?_⟩) h
    exact List.dropLast_concat

/-- A directory `a` that had a file `a/x`. -/
def cleared : FileTree :=
  (FileTree.new.insert (.ofBytes [97, 47, 120]) (.file 1 true)).remove (.ofBytes [97, 47, 120])

theorem reachableBy_cleared : cleared.ReachableBy fun t c => c.AddsNoLink ∧ t.Spares c := by
  refine .change (c := .remove (.ofBytes [97, 47, 120]))
    (.change (c := .addFile (.ofBytes [97, 47, 120]) 1) .new ⟨trivial, trivial⟩ rfl)
    ⟨trivial, fun _ s => get?_concat_eq_none ?_ _⟩ rfl
  have hkeys : (FileTree.new.insert (.ofBytes [97, 47, 120]) (.file 1 true)).entries.map
      (·.1.dropLast) = [[], [], (Path.ofBytes [97]).key] := by cbv
  rw [hkeys]
  decide

theorem found_from_above_cleared :
    (cleared.ReachableBy fun _ c => c.AddsNoLink) ∧
      (Path.ofBytes [97, 47, 98, 47, 99]).key.Textual ∧
      ∃ u, cleared.addFile (.ofBytes [97, 47, 98, 47, 99]) 5 = .ok u ∧
        u.ListsDownTo (Path.ofBytes [97, 47, 98, 47, 99]).key ∧
        u.isDirectory (.ofBytes [97]) = true ∧
        ∃ q : Path, q.key = (Path.ofBytes [97, 47, 98, 47, 99]).key ∧
          .observed q ⟨5000000000⟩ ∈ (u.view.report [.ofBytes [97]]).entries := by
  have hreachable : cleared.ReachableBy fun _ c => c.AddsNoLink :=
    reachableBy_cleared.mono fun _ _ h => h.1
  have htextual : (Path.ofBytes [97, 47, 98, 47, 99]).key.Textual := by decide
  have hentries : cleared.entries = [((Path.ofBytes [97]).key, .directory [] true),
      ([.here], .directory [⟨[97], by decide⟩] true)] := by cbv
  have hfiles : ∀ k n readable, cleared.get? k ≠ some (.file n readable) := by
    intro k n readable hget
    have hmem := mem_of_get? hget
    rw [hentries] at hmem
    simp at hmem
  have hadd : cleared.addFile (.ofBytes [97, 47, 98, 47, 99]) 5 = .ok _ := rfl
  obtain ⟨-, hspared, hdown⟩ := found_from_above hreachable htextual
    (fun j _ n readable => hfiles j n readable) hadd
  have hlists := hspared reachableBy_cleared
  obtain ⟨hdirectory, hseen⟩ := hdown hlists (.ofBytes [97]) (by decide)
  refine ⟨hreachable, htextual, _, rfl, hlists, hdirectory, hseen fun d hd hancestor => ?_⟩
  -- the directories in between are `a` and `a/b`
  have hkey : d.key = (Path.ofBytes [97]).key ∨ d.key = (Path.ofBytes [97, 47, 98]).key := by
    have hinits : ∀ k ∈ (Path.ofBytes [97, 47, 98, 47, 99]).key.inits,
        (Path.ofBytes [97]).key <+: k → Key.IsAncestor k (Path.ofBytes [97, 47, 98, 47, 99]).key →
          k = (Path.ofBytes [97]).key ∨ k = (Path.ofBytes [97, 47, 98]).key := by decide
    exact hinits _ ((List.mem_inits _ _).mpr hancestor.begins) hd hancestor
  have hunlinked := (hreachable.unlinked fun _ _ h => h).insert (.ofBytes [97, 47, 98, 47, 99])
    (e := .file 5 true) (by simp)
  rcases hkey with hkey | hkey
  · exact ⟨_, hunlinked.list_eq_ok_iff.mpr ⟨[⟨[98], by decide⟩], by rw [hkey]; cbv, rfl⟩⟩
  · exact ⟨_, hunlinked.list_eq_ok_iff.mpr ⟨[⟨[99], by decide⟩], by rw [hkey]; cbv, rfl⟩⟩

/-- A file `a/b/c` whose topmost directory `a` was removed. -/
def orphaned : FileTree :=
  (FileTree.new.insert (.ofBytes [97, 47, 98, 47, 99]) (.file 1 true)).remove (.ofBytes [97])

/-- The directory `a/b` is still there, so `a` does not come back when `a/b/d` is added, and
whoever watches `a` does not see the file. -/
theorem not_found_from_above :
    (orphaned.ReachableBy fun _ c => c.AddsNoLink) ∧
      (Path.ofBytes [97, 47, 98, 47, 100]).key.Textual ∧
      (∀ j, j.IsAncestor (Path.ofBytes [97, 47, 98, 47, 100]).key →
        ∀ n readable, orphaned.get? j ≠ some (.file n readable)) ∧
      ∃ u, orphaned.addFile (.ofBytes [97, 47, 98, 47, 100]) 2 = .ok u ∧
        u.isDirectory (.ofBytes [97]) = false ∧
        u.list (.ofBytes [97, 47, 98]) =
          .ok [.ofBytes [97, 47, 98, 47, 99], .ofBytes [97, 47, 98, 47, 100]] ∧
        u.view.latest [.ofBytes [97]] = .zero := by
  have hreachable : orphaned.ReachableBy fun _ c => c.AddsNoLink :=
    .change (c := .remove _) (.change (c := .addFile _ 1) .new trivial rfl) trivial rfl
  refine ⟨hreachable, by decide, fun j hj n readable hget => ?_, _, rfl, by cbv, by cbv, by cbv⟩
  have hentries : orphaned.entries = [([.here], .directory [] true),
      ((Path.ofBytes [97, 47, 98]).key, .directory [⟨[99], by decide⟩] true),
      ((Path.ofBytes [97, 47, 98, 47, 99]).key, .file 1 true)] := by cbv
  have hmem := mem_of_get? hget
  rw [hentries] at hmem
  obtain ⟨rfl, -⟩ : j = (Path.ofBytes [97, 47, 98, 47, 99]).key ∧ _ := by simpa using hmem
  exact absurd hj.begins (by decide)

end PollWatch.FileTree
