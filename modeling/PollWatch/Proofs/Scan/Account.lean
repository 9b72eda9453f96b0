import Mathlib
import PollWatch.Proofs.FileTree.Lookup
import PollWatch.Proofs.Scan.Visited
import PollWatch.Proofs.Timestamp.Newest

/-!
# The account of a scan

The scan is written here once more, as a recursion that goes through each directory
before it takes up the next path (`Scans`). The paths grow with each level and
a link may lead back to any of them, so nothing in the recursion gets smaller by itself;
what ends it is that a name which was visited is not entered again.

> `scans_findings`: the recursion ends on every tree, and gives what the scan reports.

`accounted` draws up the account. Each path that is looked at came from the watch set or
from one listing, gave one finding, and that finding is the one which the tree's answers call
for (`Answers`); every listed directory was listed once; and the entries of the report
are counted by the paths that were given and the names that were listed.
-/

namespace PollWatch

namespace FileTree

/-- The names visited once the directory at `p` is noted; none if it was visited before. A
directory that has no name is not noted. -/
def noted? (t : FileTree) (visited : Finset Key) (p : Path) : Option (Finset Key) :=
  match t.canonical p with
  | .ok name => if name.key ∈ visited then none else some ({name.key} ∪ visited)
  | .error _ => some visited

/-- A scan as a recursion over the tree: looked at in order, with these names visited, the paths
give these entries and leave those names visited. A directory is gone through to its end before
the next path is looked at. Nothing here says that the recursion ends. -/
inductive Scans (t : FileTree) :
    Finset Key → List Path → List Finding → Finset Key → Prop
  | done {visited : Finset Key} : Scans t visited [] [] visited
  | file {visited visited' : Finset Key} {p : Path} {ps : List Path} {entries : List Finding} :
      t.isDirectory p = false → Scans t visited ps entries visited' →
      Scans t visited (p :: ps) (t.view.lookAtFile p :: entries) visited'
  | revisited {visited visited' : Finset Key} {p : Path} {ps : List Path}
      {entries : List Finding} :
      t.isDirectory p = true → t.noted? visited p = none → Scans t visited ps entries visited' →
      Scans t visited (p :: ps) (.revisited p :: entries) visited'
  | unlisted {visited noted visited' : Finset Key} {p : Path} {f : Fault} {ps : List Path}
      {entries : List Finding} :
      t.isDirectory p = true → t.noted? visited p = some noted → t.list p = .error f →
      Scans t noted ps entries visited' →
      Scans t visited (p :: ps) (.unlisted p f :: entries) visited'
  | listed {visited noted inner visited' : Finset Key} {p : Path} {children ps : List Path}
      {below entries : List Finding} :
      t.isDirectory p = true → t.noted? visited p = some noted → t.list p = .ok children →
      Scans t noted children below inner → Scans t inner ps entries visited' →
      Scans t visited (p :: ps) (below ++ entries) visited'

theorem Scans.unique {t : FileTree} {visited a b : Finset Key} {ps : List Path}
    {es fs : List Finding} (h : t.Scans visited ps es a) (h' : t.Scans visited ps fs b) :
    es = fs ∧ a = b := by
  -- the answers of the tree leave one rule for each path
  induction h generalizing fs b with
  | done =>
    cases h'
    exact ⟨rfl, rfl⟩
  | file hdir _ ih =>
    cases h' with
    | file _ hrest =>
      obtain ⟨rfl, rfl⟩ := ih hrest
      exact ⟨rfl, rfl⟩
    | revisited hdir' => exact absurd (hdir.symm.trans hdir') (by simp)
    | unlisted hdir' => exact absurd (hdir.symm.trans hdir') (by simp)
    | listed hdir' => exact absurd (hdir.symm.trans hdir') (by simp)
  | revisited hdir hnoted _ ih =>
    cases h' with
    | file hdir' => exact absurd (hdir.symm.trans hdir') (by simp)
    | revisited _ _ hrest =>
      obtain ⟨rfl, rfl⟩ := ih hrest
      exact ⟨rfl, rfl⟩
    | unlisted _ hnoted' => exact absurd (hnoted.symm.trans hnoted') (by simp)
    | listed _ hnoted' => exact absurd (hnoted.symm.trans hnoted') (by simp)
  | unlisted hdir hnoted hlist _ ih =>
    cases h' with
    | file hdir' => exact absurd (hdir.symm.trans hdir') (by simp)
    | revisited _ hnoted' => exact absurd (hnoted.symm.trans hnoted') (by simp)
    | unlisted _ hnoted' hlist' hrest =>
      obtain rfl := Option.some.inj (hnoted.symm.trans hnoted')
      obtain rfl := Except.error.inj (hlist.symm.trans hlist')
      obtain ⟨rfl, rfl⟩ := ih hrest
      exact ⟨rfl, rfl⟩
    | listed _ _ hlist' => exact absurd (hlist.symm.trans hlist') (by simp)
  | listed hdir hnoted hlist _ _ ihbelow ih =>
    cases h' with
    | file hdir' => exact absurd (hdir.symm.trans hdir') (by simp)
    | revisited _ hnoted' => exact absurd (hnoted.symm.trans hnoted') (by simp)
    | unlisted _ _ hlist' => exact absurd (hlist.symm.trans hlist') (by simp)
    | listed _ hnoted' hlist' hbelow hrest =>
      obtain rfl := Option.some.inj (hnoted.symm.trans hnoted')
      obtain rfl := Except.ok.inj (hlist.symm.trans hlist')
      obtain ⟨rfl, rfl⟩ := ihbelow hbelow
      obtain ⟨rfl, rfl⟩ := ih hrest
      exact ⟨rfl, rfl⟩

/-- Two lists of paths are gone through one after the other. -/
theorem Scans.split {t : FileTree} {visited visited' : Finset Key} {a b : List Path}
    {entries : List Finding} (h : t.Scans visited (a ++ b) entries visited') :
    ∃ es fs between, t.Scans visited a es between ∧ t.Scans between b fs visited' ∧
      entries = es ++ fs := by
  induction a generalizing visited entries with
  | nil => exact ⟨[], entries, visited, .done, h, rfl⟩
  | cons p a ih =>
    rw [List.cons_append] at h
    cases h with
    | file hdir hrest =>
      obtain ⟨es, fs, between, ha, hb, rfl⟩ := ih hrest
      exact ⟨_, fs, between, .file hdir ha, hb, rfl⟩
    | revisited hdir hnoted hrest =>
      obtain ⟨es, fs, between, ha, hb, rfl⟩ := ih hrest
      exact ⟨_, fs, between, .revisited hdir hnoted ha, hb, rfl⟩
    | unlisted hdir hnoted hlist hrest =>
      obtain ⟨es, fs, between, ha, hb, rfl⟩ := ih hrest
      exact ⟨_, fs, between, .unlisted hdir hnoted hlist ha, hb, rfl⟩
    | listed hdir hnoted hlist hbelow hrest =>
      obtain ⟨es, fs, between, ha, hb, rfl⟩ := ih hrest
      exact ⟨_, fs, between, .listed hdir hnoted hlist hbelow ha, hb,
        (List.append_assoc ..).symm⟩

theorem isDirectory_of_directory? {t : FileTree} {p name : Path} (h : t.directory? p = some name) :
    t.isDirectory p = true := by
  rw [← directory?_isSome, h]
  rfl

/-- A directory always has a name, so it is always noted. -/
theorem noted?_of_directory? {t : FileTree} {p name : Path} (h : t.directory? p = some name)
    (visited : Finset Key) :
    t.noted? visited p = if name.key ∈ visited then none else some ({name.key} ∪ visited) := by
  unfold noted?
  rw [canonical_of_directory? h]

theorem isReported_lookAtFile (v : View) (p : Path) : (v.lookAtFile p).isReported = true := by
  unfold View.lookAtFile
  split
  next => split <;> rfl
  next => rfl

/-- The recursion ends, whatever the links of the tree are, and gives what the scan reports. -/
theorem scans_findings (t : FileTree) (visited : List Key) (waiting : List Path) :
    t.Scans visited.toFinset waiting
      ((t.view.findings visited waiting).filter Finding.isReported)
      (t.view.met (t.view.findings visited waiting) ++ visited).toFinset := by
  fun_induction t.view.findings visited waiting with
  | case1 visited => exact .done
  | case2 visited p waiting hnone ih =>
    rw [List.filter_cons_of_pos (isReported_lookAtFile _ p),
      View.met_cons_of_none (by rw [View.path_lookAtFile]; exact hnone)]
    exact .file (isDirectory_eq_false_iff.mpr hnone) ih
  | case3 visited p waiting name hname hv ih =>
    have hnoted : t.noted? visited.toFinset p = none := by
      rw [noted?_of_directory? hname, if_pos (List.mem_toFinset.mpr hv)]
    rw [View.met_cons_of_some (f := .revisited p) hname, List.cons_append, List.toFinset_cons,
      Finset.insert_eq_of_mem (by simp [hv])]
    exact .revisited (isDirectory_of_directory? hname) hnoted ih
  | case4 visited p waiting name hname hv ih =>
    have hdir := isDirectory_of_directory? hname
    have hnoted : t.noted? visited.toFinset p = some (name.key :: visited).toFinset := by
      rw [noted?_of_directory? hname, if_neg (fun h => hv (List.mem_toFinset.mp h)),
        List.toFinset_cons, Finset.insert_eq]
    have hmet : ∀ ks : List Key, (ks ++ name.key :: visited).toFinset
        = (name.key :: ks ++ visited).toFinset :=
      fun ks => List.toFinset_eq_of_perm _ _ List.perm_middle
    rw [View.met_cons_of_some (by rw [View.path_enter]; exact hname), ← hmet]
    unfold View.enter at ih ⊢
    split at ih
    next children hlist =>
      -- the entries of the directory stand in front of the paths that wait
      obtain ⟨below, entries, inner, hbelow, hrest, happend⟩ := ih.split
      rw [List.filter_cons_of_neg (by simp [Finding.isReported]), happend]
      exact .listed hdir hnoted hlist hbelow hrest
    next fault hlist =>
      rw [List.filter_cons_of_pos rfl]
      exact .unlisted hdir hnoted hlist ih

/-! ## Every finding is what the tree answers -/

/-- A directory of this name is among the paths of some findings. -/
def VisitedIn (t : FileTree) (before : List Finding) (k : Key) : Prop :=
  ∃ f ∈ before, t.isDirectory f.path = true ∧
    ∃ name, t.canonical f.path = .ok name ∧ name.key = k

/-- The finding that the answers of the tree make of a path, after the findings before it. -/
inductive Answers (t : FileTree) (before : List Finding) : Finding → Prop
  | observed {p : Path} {u : Timestamp} :
      t.isDirectory p = false → t.modified p = .ok u.nanos → Answers t before (.observed p u)
  | skipped {p : Path} {f : Fault} :
      t.isDirectory p = false → t.modified p = .error f →
      Answers t before (.skipped p (.fault f))
  | revisited {p name : Path} :
      t.isDirectory p = true → t.canonical p = .ok name → t.VisitedIn before name.key →
      Answers t before (.revisited p)
  | unlisted {p name : Path} {f : Fault} :
      t.isDirectory p = true → t.canonical p = .ok name → ¬ t.VisitedIn before name.key →
      t.list p = .error f → Answers t before (.unlisted p f)
  | entered {p name : Path} {children : List Path} :
      t.isDirectory p = true → t.canonical p = .ok name → ¬ t.VisitedIn before name.key →
      t.list p = .ok children → Answers t before (.entered p name children)

theorem mem_met_iff_visitedIn {t : FileTree} {before : List Finding} {k : Key} :
    k ∈ t.view.met before ↔ t.VisitedIn before k := by
  rw [View.mem_met_iff]
  constructor
  · rintro ⟨f, hf, name, hname, hk⟩
    exact ⟨f, hf, isDirectory_of_directory? hname, name, canonical_of_directory? hname, hk⟩
  · rintro ⟨f, hf, hdir, name, hname, hk⟩
    rw [← directory?_isSome] at hdir
    obtain ⟨name', hname'⟩ := Option.isSome_iff_exists.mp hdir
    obtain rfl := Except.ok.inj (hname.symm.trans (canonical_of_directory? hname'))
    exact ⟨f, hf, name, hname', hk⟩

/-- No file of a tree is older than the epoch. -/
theorem nonneg_of_modified {t : FileTree} {p : Path} {i : Instant} (h : t.modified p = .ok i) :
    0 ≤ i := by
  unfold modified at h
  split at h
  next => exact absurd h (by simp)
  next =>
    obtain rfl := Except.ok.inj h
    exact Int.natCast_nonneg _
  next => exact absurd h (by simp)
  next =>
    obtain rfl := Except.ok.inj h
    exact Int.le_refl 0
  next => exact absurd h (by simp)

theorem answers_lookAtFile {t : FileTree} {p : Path} (h : t.isDirectory p = false)
    (before : List Finding) : t.Answers before (t.view.lookAtFile p) := by
  unfold View.lookAtFile
  split
  next i hi =>
    split
    next u hu =>
      rw [Timestamp.ofInstant?_eq_some_iff.mp hu] at hi
      exact .observed h hi
    next hnone =>
      have hneg := Timestamp.ofInstant?_eq_none_iff.mp hnone
      exact absurd (nonneg_of_modified hi) (Int.not_le.mpr hneg)
  next f hf => exact .skipped h hf

theorem answers_of_finds {t : FileTree} {before : List Finding} {f : Finding}
    (h : t.view.Finds (t.view.met before) f) : t.Answers before f := by
  cases h with
  | @file p hnone => exact answers_lookAtFile (isDirectory_eq_false_iff.mpr hnone) before
  | @again p name hname hv =>
    exact .revisited (isDirectory_of_directory? hname) (canonical_of_directory? hname)
      (mem_met_iff_visitedIn.mp hv)
  | @new p name hname hv =>
    have hdir := isDirectory_of_directory? hname
    have hcanonical := canonical_of_directory? hname
    have hnot : ¬ t.VisitedIn before name.key := fun h => hv (mem_met_iff_visitedIn.mpr h)
    unfold View.enter
    split
    next children hlist => exact .entered hdir hcanonical hnot hlist
    next f hlist => exact .unlisted hdir hcanonical hnot hlist

/-! ## The account -/

/-- The directories whose entries were listed by the scan of a watch set. -/
def listedKeys (t : FileTree) (watched : List Path) : Finset Key :=
  (View.enteredKeys (t.view.scan watched)).toFinset

/-- The number of names that the directory under a key lists. -/
def childCount (t : FileTree) (k : Key) : Nat :=
  match t.get? k with
  | some (.directory children _) => children.length
  | _ => 0

/-- The account of a scan: what it went through, and what it found there. -/
structure Accounted (t : FileTree) (watched : List Path) : Prop where
  /-- The recursion over the tree ends, with the reported entries and with no others. -/
  ends : ∀ entries visited, t.Scans ∅ watched entries visited ↔
    entries = (t.view.report watched).entries ∧
      visited = (t.view.met (t.view.scan watched)).toFinset
  /-- Each watched path is looked at once, each entry of a listed directory too, and no other
  path. -/
  looked : ((t.view.scan watched).map Finding.path).Perm
    (watched ++ (t.view.scan watched).flatMap Finding.children)
  /-- Each path looked at is an entry of the report, unless it is a listed directory. -/
  reported : (t.view.report watched).entries
    = (t.view.scan watched).filter Finding.isReported
  /-- What is found at a path is decided by the answers of the tree. -/
  answered : ∀ before f after, t.view.scan watched = before ++ f :: after → t.Answers before f
  /-- A listed directory is stored, may be listed, and was listed once. -/
  listed : ∀ k ∈ t.listedKeys watched, ∃ children, t.get? k = some (.directory children true)
  once : (View.enteredKeys (t.view.scan watched)).Nodup
  /-- Entries and listed directories together are as many as the watched paths and the entries of
  those directories. -/
  balance : (t.view.report watched).entries.length + (t.listedKeys watched).card
    = watched.length + ∑ k ∈ t.listedKeys watched, t.childCount k
  /-- The result is the newest time observed, and zero if there is none. -/
  newest : ∀ p u, .observed p u ∈ (t.view.report watched).entries →
    u ≤ t.view.latest watched
  attained : (∃ p, .observed p (t.view.latest watched) ∈ (t.view.report watched).entries) ∨
    (∀ p u, .observed p u ∉ (t.view.report watched).entries) ∧ t.view.latest watched = .zero

/-- A directory that was entered is stored under its name, may be listed, and gave its entries. -/
theorem get?_of_entered {t : FileTree} {visited : List Key} {waiting children : List Path}
    {p name : Path} (h : .entered p name children ∈ t.view.findings visited waiting) :
    ∃ names, t.get? name.key = some (.directory names true) ∧ children = names.map p.child := by
  rcases View.finding_cases h with ⟨-, hlook⟩ | ⟨name', hname, hagain | henter⟩
  · -- a look at a file is reported, an entered directory is not
    have hreported := isReported_lookAtFile t.view p
    rw [← show _ = t.view.lookAtFile p from hlook] at hreported
    exact absurd hreported (by simp [Finding.isReported])
  · exact absurd hagain (by simp)
  · unfold View.enter at henter
    split at henter
    next entries hlist =>
      obtain ⟨-, rfl, rfl⟩ := Finding.entered.inj henter
      obtain ⟨q, names, hq, hget, hentries⟩ := list_eq_ok_iff.mp hlist
      obtain rfl := Option.some.inj (hq.symm.trans (directory?_eq_some_iff.mp hname).1)
      exact ⟨names, hget, hentries⟩
    next => exact absurd henter (by simp)

theorem childCount_of_entered {t : FileTree} {visited : List Key} {waiting children : List Path}
    {p name : Path} (h : .entered p name children ∈ t.view.findings visited waiting) :
    children.length = t.childCount name.key := by
  obtain ⟨names, hget, rfl⟩ := get?_of_entered h
  unfold childCount
  rw [hget, List.length_map]

/-- The entries listed by a scan, counted directory by directory. -/
theorem length_flatMap_children {count : Key → Nat} {fs : List Finding}
    (h : ∀ p name children, .entered p name children ∈ fs → children.length = count name.key) :
    (fs.flatMap Finding.children).length = ((View.enteredKeys fs).map count).sum := by
  induction fs with
  | nil => rfl
  | cons f fs ih =>
    have hrest := ih fun p name children hmem => h p name children (List.mem_cons_of_mem _ hmem)
    rw [List.flatMap_cons, List.length_append, hrest]
    cases f with
    | entered p name children =>
      have hlength := h p name children (List.mem_cons_self ..)
      show children.length + _ = count name.key + _
      rw [hlength]
      rfl
    | _ => exact Nat.zero_add _

/-- A finding is reported, or a directory was entered. -/
theorem length_filter_isReported (fs : List Finding) :
    (fs.filter Finding.isReported).length + (View.enteredKeys fs).length = fs.length := by
  induction fs with
  | nil => rfl
  | cons f fs ih =>
    cases f with
    | entered p name children =>
      show (fs.filter Finding.isReported).length + (View.enteredKeys fs).length.succ = _
      rw [List.length_cons, ← ih]
      omega
    | _ =>
      show (fs.filter Finding.isReported).length.succ + (View.enteredKeys fs).length = _
      rw [List.length_cons, ← ih]
      omega

theorem card_listedKeys (t : FileTree) (watched : List Path) :
    (t.listedKeys watched).card = (View.enteredKeys (t.view.scan watched)).length :=
  List.toFinset_card_of_nodup (View.nodup_enteredKeys [] watched).1

theorem sum_childCount (t : FileTree) (watched : List Path) :
    ∑ k ∈ t.listedKeys watched, t.childCount k
      = ((t.view.scan watched).flatMap Finding.children).length := by
  have hlength : ((t.view.scan watched).flatMap Finding.children).length
      = ((View.enteredKeys (t.view.scan watched)).map t.childCount).sum :=
    length_flatMap_children fun p name children h => childCount_of_entered h
  rw [hlength]
  exact List.sum_toFinset t.childCount (View.nodup_enteredKeys [] watched).1

theorem mem_entries_observed {t : FileTree} {watched : List Path} {u : Timestamp} :
    (∃ p, .observed p u ∈ (t.view.report watched).entries) ↔
      u ∈ (t.view.report watched).entries.filterMap Finding.modified? :=
  Report.mem_times_iff.symm

/-- On the watch set the recursion gives the report, and nothing else. -/
theorem scans_iff {t : FileTree} {watched : List Path} {entries : List Finding}
    {visited : Finset Key} :
    t.Scans ∅ watched entries visited ↔
      entries = (t.view.report watched).entries ∧
        visited = (t.view.met (t.view.scan watched)).toFinset := by
  have hscans := t.scans_findings [] watched
  rw [List.append_nil] at hscans
  constructor
  · intro h
    exact h.unique hscans
  · rintro ⟨rfl, rfl⟩
    exact hscans

theorem answers_of_scan {t : FileTree} {watched : List Path} {before after : List Finding}
    {f : Finding} (h : t.view.scan watched = before ++ f :: after) : t.Answers before f := by
  have hfinds := View.finds_of_append h
  rw [List.append_nil] at hfinds
  exact answers_of_finds hfinds

theorem get?_of_mem_listedKeys {t : FileTree} {watched : List Path} {k : Key}
    (h : k ∈ t.listedKeys watched) : ∃ children, t.get? k = some (.directory children true) := by
  obtain ⟨f, hf, hkey⟩ := List.mem_filterMap.mp (List.mem_toFinset.mp h)
  cases f with
  | entered p name children =>
    obtain rfl := Option.some.inj hkey
    obtain ⟨names, hget, -⟩ := get?_of_entered hf
    exact ⟨names, hget⟩
  | _ => exact absurd hkey (by simp)

/-- The findings are counted twice: by what they are, and by where their paths came from. -/
theorem length_entries_add_card (t : FileTree) (watched : List Path) :
    (t.view.report watched).entries.length + (t.listedKeys watched).card
      = watched.length + ∑ k ∈ t.listedKeys watched, t.childCount k := by
  have hpaths := (View.paths_perm (v := t.view) [] watched).length_eq
  rw [List.length_map, List.length_append] at hpaths
  have hparts := length_filter_isReported (t.view.scan watched)
  rw [card_listedKeys, sum_childCount]
  exact hparts.trans hpaths

theorem latest_observed_or_zero (t : FileTree) (watched : List Path) :
    (∃ p, .observed p (t.view.latest watched) ∈ (t.view.report watched).entries) ∨
      (∀ p u, .observed p u ∉ (t.view.report watched).entries) ∧
        t.view.latest watched = .zero := by
  by_cases hnil : (t.view.report watched).entries.filterMap Finding.modified? = []
  · refine Or.inr ⟨fun p u hu => ?_, ?_⟩
    · have hmem := mem_entries_observed.mp ⟨p, hu⟩
      rw [hnil] at hmem
      exact absurd hmem (by simp)
    · show Timestamp.newest _ = _
      rw [hnil]
      rfl
  · exact Or.inl (mem_entries_observed.mpr (Timestamp.newest_mem hnil))

/-- **A scan ends and accounts for every path once.** -/
theorem accounted (t : FileTree) (watched : List Path) : t.Accounted watched where
  ends _ _ := scans_iff
  looked := View.paths_perm [] watched
  reported := rfl
  answered _ _ _ h := answers_of_scan h
  listed _ hk := get?_of_mem_listedKeys hk
  once := (View.nodup_enteredKeys [] watched).1
  balance := t.length_entries_add_card watched
  newest p _ hu := Timestamp.le_newest (mem_entries_observed.mp ⟨p, hu⟩)
  attained := t.latest_observed_or_zero watched

end FileTree

end PollWatch
