import PollWatch.Proofs.Scan.Reached
import PollWatch.Proofs.Scan.Visited

/-!
# Scans of combined watch sets

A scan that starts where another has ended skips the directories that the other has
met. What it skips would have shown it nothing new:

> `known_of_covers`: below what a scan covers, only directories that it met and times
> that it saw are found.

So `latest_combined`: the result for two watch sets is the newer of the two results. The
first scan must not have run into the limit of links. Otherwise a directory that was entered
by a long way round is skipped when it is reached directly, though some of its links could be
followed only from there: `latest_append_ne_max_looped` is a tree where this loses a file.
-/

namespace PollWatch

/-- The modification times among some findings. -/
def timesOf (fs : List Finding) : List Timestamp := fs.filterMap Finding.modified?

theorem mem_timesOf_iff {fs : List Finding} {u : Timestamp} :
    u ∈ timesOf fs ↔ ∃ f ∈ fs, f.modified? = some u :=
  List.mem_filterMap

theorem timesOf_cons_of_none {f : Finding} (h : f.modified? = none) (fs : List Finding) :
    timesOf (f :: fs) = timesOf fs :=
  List.filterMap_cons_none h

theorem mem_timesOf_cons {f : Finding} {fs : List Finding} {u : Timestamp} :
    u ∈ timesOf (f :: fs) ↔ f.modified? = some u ∨ u ∈ timesOf fs := by
  rw [mem_timesOf_iff, List.exists_mem_cons_iff, mem_timesOf_iff]

theorem timesOf_append (fs gs : List Finding) : timesOf (fs ++ gs) = timesOf fs ++ timesOf gs :=
  List.filterMap_append

namespace FileTree

theorem latest_eq_newest_timesOf (t : FileTree) (watched : List Path) :
    t.view.latest watched = Timestamp.newest (timesOf (t.view.scan watched)) :=
  latest_ofFindings _

/-! ## What lies below a directory that is known -/

/-- A covered directory is met. -/
theorem Covers.mem_met {t : FileTree} {watched : List Path} (hlinks : t.LinksSuffice watched)
    {p name : Path} (hp : t.Covers watched p) (hname : t.directory? p = some name) :
    name.key ∈ t.view.met (t.view.scan watched) := by
  obtain ⟨hres, children, listable, hget⟩ := directory?_eq_some_iff.mp hname
  obtain ⟨n, -, hn⟩ := resolve?_eq_some_iff.mp hres
  obtain ⟨f, hf, m, q, hm, hkey⟩ := hp n name hn
  have hq : t.directory? f.path = some q :=
    directory?_eq_some_iff.mpr
      ⟨hlinks.resolve? hf hm, children, listable, by rw [hkey]; exact hget⟩
  exact View.mem_met_iff.mpr ⟨f, hf, q, hq, hkey⟩

/-- A directory that was met is covered, under whatever path. -/
theorem covers_of_mem_met {t : FileTree} {watched : List Path} {p name : Path}
    (hname : t.directory? p = some name)
    (hmem : name.key ∈ t.view.met (t.view.scan watched)) : t.Covers watched p := by
  intro n q hq
  obtain ⟨m, -, hm⟩ := resolve?_eq_some_iff.mp (directory?_eq_some_iff.mp hname).1
  obtain ⟨-, rfl⟩ := Expands.unique hq hm
  obtain ⟨f, hf, name', hname', hkey⟩ := View.mem_met_iff.mp hmem
  obtain ⟨m', -, hm'⟩ := resolve?_eq_some_iff.mp (directory?_eq_some_iff.mp hname').1
  exact ⟨f, hf, m', name', hm', hkey⟩

/-- The entries of a directory that was met are covered. -/
theorem covers_of_mem_children {t : FileTree} (ht : t.Reachable) {watched : List Path}
    (hlinks : t.LinksSuffice watched) {p name c : Path} (hname : t.directory? p = some name)
    (hmem : name.key ∈ t.view.met (t.view.scan watched))
    (hc : c ∈ (t.view.enter p name).children) : t.Covers watched c := by
  have hstart : ∀ q ∈ [p], t.Covers watched q := by
    intro q hq
    rw [List.mem_singleton.mp hq]
    exact covers_of_mem_met hname hmem
  have hp : t.view.Reaches [p] p := .watched (List.mem_singleton_self p)
  exact .of_reaches ht hlinks hstart (View.reaches_of_mem_enter hp hname hc)

/-- Covered paths lead to nothing new: the directories below them were met, and the times of the
files were seen. -/
theorem known_of_covers {t : FileTree} (ht : t.Reachable) {watched : List Path}
    (hlinks : t.LinksSuffice watched) {start : List Path}
    (hstart : ∀ p ∈ start, t.Covers watched p) (visited : List Key) :
    t.view.met (t.view.findings visited start) ⊆ t.view.met (t.view.scan watched) ∧
      timesOf (t.view.findings visited start) ⊆ timesOf (t.view.scan watched) := by
  have hcovers : ∀ f ∈ t.view.findings visited start, t.Covers watched f.path :=
    fun f hf => .of_reaches ht hlinks hstart (View.reaches_of_mem (fun _ hp => .watched hp) hf)
  constructor
  · intro k hk
    obtain ⟨f, hf, name, hname, rfl⟩ := View.mem_met_iff.mp hk
    exact (hcovers f hf).mem_met hlinks hname
  · intro u hu
    obtain ⟨f, hf, hfu⟩ := mem_timesOf_iff.mp hu
    obtain ⟨hnone, hmod⟩ := (View.modified?_of_mem hf).mp hfu
    obtain ⟨g, hg, w, hgw, hnanos⟩ := (hcovers f hf).exists_modified? hlinks
      (isDirectory_eq_false_iff.mpr hnone) hmod
    obtain rfl : u = w := Timestamp.ext_nanos (Int.ofNat_inj.mp hnanos)
    exact mem_timesOf_iff.mpr ⟨g, hg, hgw⟩

/-! ## Two scans side by side -/

/-- A scan that knows what an earlier scan has met sees the times that it sees without that
knowledge, up to times that the earlier scan has seen. The two go step by step together, except
where one of them enters a directory that the other knows. -/
theorem mem_timesOf_of_known {t : FileTree} (ht : t.Reachable) {watched : List Path}
    (hlinks : t.LinksSuffice watched) {visited visited' : List Key}
    (hknown : ∀ k, k ∈ visited ↔ k ∈ t.view.met (t.view.scan watched) ∨ k ∈ visited')
    (waiting : List Path) (u : Timestamp) :
    u ∈ timesOf (t.view.findings visited waiting) ∨ u ∈ timesOf (t.view.scan watched) ↔
      u ∈ timesOf (t.view.findings visited' waiting) ∨ u ∈ timesOf (t.view.scan watched) := by
  fun_induction t.view.findings visited waiting generalizing visited' with
  | case1 => rw [View.findings]
  | case2 visited p waiting hnone ih =>
    rw [View.findings_of_file hnone, mem_timesOf_cons, mem_timesOf_cons, or_assoc, or_assoc,
      ih hknown]
  | case3 visited p waiting name hname hv ih =>
    rw [timesOf_cons_of_none rfl]
    by_cases hv' : name.key ∈ visited'
    · rw [View.findings_of_visited hname hv', timesOf_cons_of_none rfl]
      exact ih hknown
    · -- one scan goes through the directory, where all is known, and then they are together again
      have hmet : name.key ∈ t.view.met (t.view.scan watched) :=
        ((hknown _).mp hv).resolve_right hv'
      obtain ⟨hkeys, htimes⟩ := known_of_covers ht hlinks
        (fun c hc => covers_of_mem_children ht hlinks hname hmet hc) (name.key :: visited')
      rw [View.findings_of_new hname hv', timesOf_cons_of_none (View.enter_modified? p name),
        View.findings_append, timesOf_append, List.mem_append]
      generalize t.view.findings (name.key :: visited') (t.view.enter p name).children = below
        at hkeys htimes ⊢
      have hstep : ∀ k, k ∈ visited ↔ k ∈ t.view.met (t.view.scan watched) ∨
          k ∈ t.view.met below ++ name.key :: visited' := by
        intro k
        rw [hknown, List.mem_append, List.mem_cons]
        constructor
        · rintro (hk | hk)
          · exact Or.inl hk
          · exact Or.inr (Or.inr (Or.inr hk))
        · rintro (hk | hk | rfl | hk)
          · exact Or.inl hk
          · exact Or.inl (hkeys hk)
          · exact Or.inl hmet
          · exact Or.inr hk
      rw [ih hstep, or_assoc]
      exact ⟨Or.inr, fun h => h.elim (fun hu => Or.inr (htimes hu)) id⟩
  | case4 visited p waiting name hname hv ih =>
    have hv' : name.key ∉ visited' := fun h => hv ((hknown _).mpr (Or.inr h))
    have hstep : ∀ k, k ∈ name.key :: visited ↔
        k ∈ t.view.met (t.view.scan watched) ∨ k ∈ name.key :: visited' := by
      intro k
      rw [List.mem_cons, List.mem_cons, hknown]
      exact or_left_comm
    rw [View.findings_of_new hname hv', timesOf_cons_of_none (View.enter_modified? p name),
      timesOf_cons_of_none (View.enter_modified? p name)]
    exact ih hstep

/-! ## Combined watch sets -/

/-- The scan of a watch set is the beginning of the scan of every longer one. -/
theorem scan_append (v : View) (a b : List Path) :
    v.scan (a ++ b) = v.scan a ++ v.findings (v.met (v.scan a)) b := by
  have happend := View.findings_append (v := v) [] a b
  rw [List.append_nil] at happend
  exact happend

/-- If no path of the first watch set leads through too many links, the result for two watch sets
together is the newer of their results. -/
theorem latest_append {t : FileTree} (ht : t.Reachable) {a : List Path} (ha : t.LinksSuffice a)
    (b : List Path) :
    t.view.latest (a ++ b) = max (t.view.latest a) (t.view.latest b) := by
  have hknown : ∀ k, k ∈ t.view.met (t.view.scan a) ↔ k ∈ t.view.met (t.view.scan a) ∨ k ∈ [] :=
    fun k => ⟨Or.inl, fun h => h.resolve_right List.not_mem_nil⟩
  have hmem := mem_timesOf_of_known ht ha hknown b
  rw [latest_eq_newest_timesOf, latest_eq_newest_timesOf, latest_eq_newest_timesOf, scan_append,
    timesOf_append, ← Timestamp.newest_append]
  refine Timestamp.newest_congr fun u => ?_
  rw [List.mem_append, List.mem_append, or_comm, hmem u, or_comm]
  rfl

theorem latest_le_append (t : FileTree) (a b : List Path) :
    t.view.latest a ≤ t.view.latest (a ++ b) := by
  rw [latest_eq_newest_timesOf, latest_eq_newest_timesOf, scan_append, timesOf_append]
  exact Timestamp.newest_le_of_subset (List.subset_append_left _ _)

/-- Where each path alone does not lead through too many links, the result is the newest of the
results for the single paths. -/
theorem latest_eq_newest {t : FileTree} (ht : t.Reachable) {watched : List Path}
    (hlinks : ∀ p ∈ watched, t.LinksSuffice [p]) :
    t.view.latest watched = Timestamp.newest (watched.map fun p => t.view.latest [p]) := by
  induction watched with
  | nil => rw [latest_eq_newest_timesOf, View.scan, View.findings]; rfl
  | cons p ps ih =>
    rw [List.map_cons, Timestamp.newest_cons,
      ← ih fun q hq => hlinks q (List.mem_cons_of_mem _ hq)]
    exact latest_append ht (hlinks p (List.mem_cons_self ..)) ps

/-- **The result for combined watch sets.** If no path of the first leads through too many links,
the result for two watch sets together is the newer of their results. If no single path does, the
result depends neither on the order of the paths nor on repetitions, and more paths never lower
it. Paths that are added at the end never lower it at all. -/
theorem latest_combined {t : FileTree} (ht : t.Reachable) :
    (∀ a b, t.LinksSuffice a →
      t.view.latest (a ++ b) = max (t.view.latest a) (t.view.latest b)) ∧
    (∀ w w', (∀ p ∈ w, t.LinksSuffice [p]) → w.Perm w' → t.view.latest w = t.view.latest w') ∧
    (∀ w w', (∀ p ∈ w', t.LinksSuffice [p]) → w ⊆ w' → t.view.latest w ≤ t.view.latest w') ∧
    ∀ a b, t.view.latest a ≤ t.view.latest (a ++ b) := by
  refine ⟨fun a b ha => latest_append ht ha b, fun w w' hw hperm => ?_, fun w w' hw' hsub => ?_,
    t.latest_le_append⟩
  · rw [latest_eq_newest ht hw, latest_eq_newest ht fun p hp => hw p (hperm.mem_iff.mpr hp)]
    exact Timestamp.newest_congr fun u => (hperm.map _).mem_iff
  · rw [latest_eq_newest ht hw', latest_eq_newest ht fun p hp => hw' p (hsub hp)]
    exact Timestamp.newest_le_of_subset (List.map_subset _ hsub)

/-- Watched together with a link to itself, the directory `w` gives what it gives alone. -/
theorem latest_combined_cyclic :
    cyclic.Reachable ∧ cyclic.LinksSuffice [.ofBytes [119]] ∧
      cyclic.view.latest ([.ofBytes [119]] ++ [.ofBytes [119, 47, 98]])
        = max (cyclic.view.latest [.ofBytes [119]])
            (cyclic.view.latest [.ofBytes [119, 47, 98]]) ∧
      cyclic.view.latest [.ofBytes [119]]
        ≤ cyclic.view.latest [.ofBytes [119], .ofBytes [119]] ∧
      cyclic.view.latest [.ofBytes [119]] = ⟨11000000000⟩ := by
  obtain ⟨hmax, -, hmore, -⟩ := latest_combined reachable_cyclic
  refine ⟨reachable_cyclic, linksSuffice_cyclic, hmax _ _ linksSuffice_cyclic, hmore _ _ ?_ ?_,
    by cbv⟩
  · intro p hp
    obtain rfl : p = .ofBytes [119] := by simpa using hp
    exact linksSuffice_cyclic
  · exact List.subset_cons_self _ _

/-! ## Where links do not suffice -/

/-- A file `f`, and a directory `d` with a link `s` to itself and a link `l` to `f`. -/
def looped : FileTree :=
  ((FileTree.new.insert (.ofBytes [102]) (.file 5 true)).addLink
    (.ofBytes [100, 47, 115]) (.ofBytes [100])).addLink
      (.ofBytes [100, 47, 108]) (.ofBytes [102])

/-- The path `d/s/s/…`, which leads to `d` through as many links as are allowed. -/
def roundabout : Path := .ofBytes (100 :: (List.replicate 32 [47, 115]).flatten)

theorem reachable_looped : looped.Reachable := by
  have hfile : FileTree.new.apply (.addFile (.ofBytes [102]) 5)
      = .ok (FileTree.new.insert (.ofBytes [102]) (.file 5 true)) := rfl
  exact .change (.addLink _ _) (.change (.addLink _ _) (.change _ .new hfile) rfl) rfl

theorem latest_direct : looped.view.latest [.ofBytes [100]] = ⟨5000000000⟩ := by cbv

theorem latest_roundabout_first :
    looped.view.latest [roundabout, .ofBytes [100]] = .zero := by cbv

theorem latest_roundabout_last :
    looped.view.latest [.ofBytes [100], roundabout] = ⟨5000000000⟩ := by cbv

/-- Entered under the long path first, the directory `d` is not entered under its own name any
more, and the file behind its link is lost. -/
theorem latest_append_ne_max_looped :
    looped.Reachable ∧
      looped.view.latest ([roundabout] ++ [.ofBytes [100]])
        ≠ max (looped.view.latest [roundabout]) (looped.view.latest [.ofBytes [100]]) ∧
      looped.view.latest ([roundabout] ++ [.ofBytes [100]])
        ≠ looped.view.latest ([.ofBytes [100]] ++ [roundabout]) ∧
      looped.view.latest ([roundabout] ++ [.ofBytes [100]])
        < looped.view.latest [.ofBytes [100]] := by
  show _ ∧ looped.view.latest [roundabout, .ofBytes [100]] ≠ _ ∧
    looped.view.latest [roundabout, .ofBytes [100]]
      ≠ looped.view.latest [.ofBytes [100], roundabout] ∧
    looped.view.latest [roundabout, .ofBytes [100]] < _
  rw [latest_roundabout_first, latest_roundabout_last, latest_direct]
  refine ⟨reachable_looped, fun h => ?_, by decide, by decide⟩
  have hle := Nat.le_max_right (looped.view.latest [roundabout]).nanos 5000000000
  have hnanos : 0 = Nat.max (looped.view.latest [roundabout]).nanos 5000000000 :=
    congrArg Timestamp.nanos h
  exact absurd (Nat.le_trans hle (Nat.le_of_eq hnanos.symm)) (by decide)

end FileTree

end PollWatch
