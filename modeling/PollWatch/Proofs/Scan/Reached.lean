import Mathlib
import PollWatch.Proofs.FileTree.Lookup
import PollWatch.Proofs.FileTree.Reachable
import PollWatch.Proofs.Scan.Findings
import PollWatch.Proofs.Timestamp.Newest

/-!
# A scan misses no file

A scan enters a directory once, under the first path that leads there. The paths
that could be reached without that memory are without end as soon as a link
closes a cycle. Still nothing is lost:

> `latest_isGreatest_reachedTimes`: the result of a scan is the greatest
> modification time of all readable files that can be reached, and zero if
> there is none.

What carries the proof is `Covers.of_reaches`: whatever place a reached path
leads to, the scan looks at some path that leads to the same place. It goes by
induction along the reached path. The directory above has a twin that was looked
at; the twin was entered, or met again after a third spelling of it was entered;
and below that one the scan looked at every entry. The entry there may lie behind
more links than the one that was reached, which is why the paths that the scan
looks at must not run into the limit of links, unless they lead nowhere at all.
-/

namespace PollWatch.FileTree

/-- The modification times of the readable files that can be reached. -/
def reachedTimes (t : FileTree) (watched : List Path) : Set Instant :=
  {i | ∃ p, t.view.Reaches watched p ∧ t.isDirectory p = false ∧ t.modified p = .ok i}

/-- Each path that a scan looks at is found within the limit of links, or leads nowhere at all. -/
def LinksSuffice (t : FileTree) (watched : List Path) : Prop :=
  ∀ f ∈ t.view.scan watched, (t.resolve? f.path).isSome ∨ ¬ t.Ends f.path

theorem LinksSuffice.resolve? {t : FileTree} {watched : List Path} (h : t.LinksSuffice watched)
    {f : Finding} (hf : f ∈ t.view.scan watched) {n : Nat} {q : Path}
    (hlead : t.LeadsTo f.path n q) : t.resolve? f.path = some q := by
  rcases h f hf with hsome | hnot
  · obtain ⟨r, hr⟩ := Option.isSome_iff_exists.mp hsome
    obtain ⟨m, -, hm⟩ := resolve?_eq_some_iff.mp hr
    obtain ⟨-, rfl⟩ := Expands.unique hlead hm
    exact hr
  · exact absurd ⟨n, q, hlead⟩ hnot

/-- A directory that the scan looks at is entered, if it can be listed, under some path. -/
theorem exists_entered_children {t : FileTree} {watched : List Path} {f : Finding} {q : Path}
    {children : List Segment} (hf : f ∈ t.view.scan watched) (hq : t.resolve? f.path = some q)
    (hdir : t.get? q.key = some (.directory children true)) :
    ∃ p q', t.resolve? p = some q' ∧ q'.key = q.key ∧
      .entered p q' (children.map p.child) ∈ t.view.scan watched := by
  have hname : t.view.directory? f.path = some q :=
    directory?_eq_some_iff.mpr ⟨hq, children, true, hdir⟩
  obtain ⟨p, q', hq', hkey, hmem⟩ := View.exists_entered_of_mem_scan hf hname
  have hres : t.resolve? p = some q' := (directory?_eq_some_iff.mp hq').1
  have hlist : t.view.list p = .ok (children.map p.child) :=
    list_eq_ok_iff.mpr ⟨q', children, hres, by rw [hkey]; exact hdir, rfl⟩
  refine ⟨p, q', hres, hkey, ?_⟩
  unfold View.enter at hmem
  rwa [hlist] at hmem

/-- Whatever place `p` leads to, the scan of a watch set looks at a path that leads there. -/
def Covers (t : FileTree) (watched : List Path) (p : Path) : Prop :=
  ∀ n q, t.LeadsTo p n q →
    ∃ f ∈ t.view.scan watched, ∃ m q', t.LeadsTo f.path m q' ∧ q'.key = q.key

/-- What is covered stays covered below: whatever is reached from covered paths is. -/
theorem Covers.of_reaches {t : FileTree} (ht : t.Reachable) {watched start : List Path}
    (hlinks : t.LinksSuffice watched) (hstart : ∀ p ∈ start, t.Covers watched p) {p : Path}
    (hp : t.view.Reaches start p) : t.Covers watched p := by
  induction hp with
  | watched hmem => exact hstart _ hmem
  | @entry p c entries _ _ hlist hc ih =>
    intro n r hr
    obtain ⟨q, children, hq, hget, rfl⟩ := list_eq_ok_iff.mp hlist
    obtain ⟨s, hs, rfl⟩ := List.mem_map.mp hc
    have hord : s.IsOrdinary := (ht.orderly q.key _ hget).ordinary s hs
    obtain ⟨a, -, ha⟩ := resolve?_eq_some_iff.mp hq
    -- a twin of the directory was looked at, and some path of it was entered
    obtain ⟨f, hf, a', q', ha', hkey⟩ := ih a q ha
    obtain ⟨p₀, q₀, hq₀, hkey₀, hentered⟩ := exists_entered_children hf
      (hlinks.resolve? hf ha') (by rw [hkey]; exact hget)
    obtain ⟨b, -, hb⟩ := resolve?_eq_some_iff.mp hq₀
    -- below that path stands the same entry
    obtain ⟨g, hg, hpath⟩ := View.exists_finding_of_child hentered
      (List.mem_map.mpr ⟨s, hs, rfl⟩ : p₀.child s ∈ _)
    obtain ⟨m, r', hr', hrkey⟩ := leadsTo_child_of_key_eq hord ha hb (hkey₀.trans hkey) hr
    exact ⟨g, hg, m, r', by rw [hpath]; exact hr', hrkey⟩

/-- Whatever place a reached path leads to, the scan looks at a path that leads there. -/
theorem covers_of_reaches {t : FileTree} (ht : t.Reachable) {watched : List Path}
    (hlinks : t.LinksSuffice watched) {p : Path} (hp : t.view.Reaches watched p) :
    t.Covers watched p := by
  refine .of_reaches ht hlinks (fun p hmem n q hq => ?_) hp
  obtain ⟨f, hf, rfl⟩ := View.exists_finding_of_mem hmem
  exact ⟨f, hf, n, q, hq, rfl⟩

/-- The time of a covered file is the time of some finding. -/
theorem Covers.exists_modified? {t : FileTree} {watched : List Path}
    (hlinks : t.LinksSuffice watched) {p : Path} (hp : t.Covers watched p) {i : Instant}
    (hdir : t.isDirectory p = false) (hmod : t.modified p = .ok i) :
    ∃ f ∈ t.view.scan watched, ∃ u : Timestamp, f.modified? = some u ∧ i = u.nanos := by
  obtain ⟨q, seconds, hq, hget, rfl⟩ := (modified_eq_ok_iff hdir).mp hmod
  obtain ⟨n, -, hn⟩ := resolve?_eq_some_iff.mp hq
  obtain ⟨f, hf, m, q', hm, hkey⟩ := hp n q hn
  have hq' := hlinks.resolve? hf hm
  have hnone : t.directory? f.path = none := by
    cases hsome : t.directory? f.path with
    | none => rfl
    | some r =>
      obtain ⟨hr, children, listable, hget'⟩ := directory?_eq_some_iff.mp hsome
      obtain rfl := Option.some.inj (hq'.symm.trans hr)
      rw [hkey, hget] at hget'
      exact absurd hget' (by simp)
  refine ⟨f, hf, ⟨seconds * Timestamp.perSecond⟩, ?_, rfl⟩
  refine (View.modified?_of_mem_scan hf).mpr ⟨hnone, ?_⟩
  exact (modified_eq_ok_iff (isDirectory_eq_false_iff.mpr hnone)).mpr
    ⟨q', seconds, hq', by rw [hkey]; exact hget, rfl⟩

/-- Every reached time is the time of some finding. -/
theorem exists_finding_modified? {t : FileTree} (ht : t.Reachable) {watched : List Path}
    (hlinks : t.LinksSuffice watched) {i : Instant} (hi : i ∈ t.reachedTimes watched) :
    ∃ f ∈ t.view.scan watched, ∃ u : Timestamp, f.modified? = some u ∧ i = u.nanos := by
  obtain ⟨p, hp, hdir, hmod⟩ := hi
  exact (covers_of_reaches ht hlinks hp).exists_modified? hlinks hdir hmod

/-- The time of a finding is a reached time. -/
theorem mem_reachedTimes_of_finding {t : FileTree} {watched : List Path} {f : Finding}
    {u : Timestamp} (hf : f ∈ t.view.scan watched) (hu : f.modified? = some u) :
    (u.nanos : Instant) ∈ t.reachedTimes watched := by
  obtain ⟨hnone, hmod⟩ := (View.modified?_of_mem_scan hf).mp hu
  exact ⟨f.path, View.reaches_of_mem_scan hf, isDirectory_eq_false_iff.mpr hnone, hmod⟩

/-- **Nothing is lost by entering a directory once.** A scan gives the greatest modification time
of all readable files that can be reached, through links and round their cycles, and zero if
there is none. -/
theorem latest_isGreatest_reachedTimes {t : FileTree} (ht : t.Reachable) {watched : List Path}
    (hlinks : t.LinksSuffice watched) :
    ((t.reachedTimes watched).Nonempty →
        IsGreatest (t.reachedTimes watched) (t.view.latest watched).nanos) ∧
      (t.reachedTimes watched = ∅ → t.view.latest watched = .zero) := by
  have hlatest : t.view.latest watched
      = Timestamp.newest ((t.view.scan watched).filterMap Finding.modified?) :=
    latest_ofFindings _
  rw [hlatest]
  constructor
  · rintro ⟨i, hi⟩
    obtain ⟨f, hf, u, hu, -⟩ := exists_finding_modified? ht hlinks hi
    have hne : (t.view.scan watched).filterMap Finding.modified? ≠ [] :=
      List.ne_nil_of_mem (List.mem_filterMap.mpr ⟨f, hf, hu⟩)
    constructor
    · obtain ⟨g, hg, hgu⟩ := List.mem_filterMap.mp (Timestamp.newest_mem hne)
      exact mem_reachedTimes_of_finding hg hgu
    · intro j hj
      obtain ⟨g, hg, w, hw, rfl⟩ := exists_finding_modified? ht hlinks hj
      exact Int.ofNat_le.mpr (Timestamp.le_newest (List.mem_filterMap.mpr ⟨g, hg, hw⟩))
  · intro hempty
    have hnil : (t.view.scan watched).filterMap Finding.modified? = [] := by
      refine List.eq_nil_iff_forall_not_mem.mpr fun u hu => ?_
      obtain ⟨f, hf, hfu⟩ := List.mem_filterMap.mp hu
      have hmem := mem_reachedTimes_of_finding hf hfu
      rw [hempty] at hmem
      exact hmem
    rw [hnil]
    rfl

/-- A directory `w` that lists a file, a link to `w` and a link to itself. -/
def cyclic : FileTree :=
  ((FileTree.new.insert (.ofBytes [119, 47, 97]) (.file 11 true)).addLink
    (.ofBytes [119, 47, 98]) (.ofBytes [119])).addLink
      (.ofBytes [119, 47, 99]) (.ofBytes [119, 47, 99])

theorem reachable_cyclic : cyclic.Reachable :=
  .change (.addLink _ _) (.change (.addLink _ _) (.change (.addFile _ 11) .new rfl) rfl) rfl

/-- The link to itself leads nowhere. -/
theorem not_ends_cyclic : ¬ cyclic.Ends (.ofBytes [119, 47, 99]) := by
  rintro ⟨n, q, hlead⟩
  have hchild : Path.ofBytes [119, 47, 99] = (Path.ofBytes [119]).child ⟨[99], by decide⟩ := by
    decide
  rw [hchild, leadsTo_child_iff (by decide)] at hlead
  obtain ⟨r, a, b, ha, hchase, -⟩ := hlead
  have hdir : cyclic.resolve? (.ofBytes [119]) = some (.ofBytes [119]) := by cbv
  obtain ⟨m, -, hm⟩ := resolve?_eq_some_iff.mp hdir
  obtain ⟨-, rfl⟩ := Expands.unique ha hm
  have hlink : cyclic.get? (Path.ofBytes [119, 47, 99]).key
      = some (.link (.ofBytes [119, 47, 99])) := by cbv
  exact hchase.key_ne_of_link hlink rfl

theorem linksSuffice_cyclic : cyclic.LinksSuffice [.ofBytes [119]] := by
  intro f hf
  have hpaths : (cyclic.view.scan [.ofBytes [119]]).map Finding.path =
      [.ofBytes [119], .ofBytes [119, 47, 97], .ofBytes [119, 47, 98],
        .ofBytes [119, 47, 99]] := by
    cbv
  have hmem := List.mem_map_of_mem (f := Finding.path) hf
  rw [hpaths] at hmem
  simp only [List.mem_cons, List.not_mem_nil, or_false] at hmem
  rcases hmem with h | h | h | h <;> rw [h]
  · exact Or.inl (by cbv)
  · exact Or.inl (by cbv)
  · exact Or.inl (by cbv)
  · exact Or.inr not_ends_cyclic

theorem latest_isGreatest_cyclic :
    cyclic.Reachable ∧ cyclic.LinksSuffice [.ofBytes [119]] ∧
      IsGreatest (cyclic.reachedTimes [.ofBytes [119]]) 11000000000 := by
  have hmem : (11000000000 : Instant) ∈ cyclic.reachedTimes [.ofBytes [119]] :=
    ⟨.ofBytes [119, 47, 97],
      .entry (p := .ofBytes [119]) (.watched (by simp)) (by cbv)
        (show cyclic.list _ = .ok [.ofBytes [119, 47, 97], .ofBytes [119, 47, 98],
          .ofBytes [119, 47, 99]] by cbv) (by simp), by cbv, by cbv⟩
  have hlatest : ((cyclic.view.latest [.ofBytes [119]]).nanos : Instant) = 11000000000 := by cbv
  refine ⟨reachable_cyclic, linksSuffice_cyclic, ?_⟩
  rw [← hlatest]
  exact (latest_isGreatest_reachedTimes reachable_cyclic linksSuffice_cyclic).1 ⟨_, hmem⟩

end PollWatch.FileTree
