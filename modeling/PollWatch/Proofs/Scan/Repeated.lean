import Mathlib
import PollWatch.Proofs.Scan.Link
import PollWatch.Proofs.Scan.Union

/-!
# Paths that are watched again

A scan goes through its watch set in order and takes nothing back. So paths added at the end
add their entries at the end, and paths that were watched before add nothing new:

> `report_append`: each of them adds one entry, a directory as one that was entered before
> and any other path as it stands in the report already.

What carries the second part is that each watched directory has been met when the watch
set is through (`mem_met_scan`), wherever it was met first and whether or not it could be
listed. Files are looked at as often as they are watched.
-/

namespace PollWatch

namespace View

variable {v : View}

/-- What is found at a path that was watched before. -/
def foundAgain (v : View) (p : Path) : Finding :=
  if (v.directory? p).isSome then .revisited p else v.lookAtFile p

theorem isReported_foundAgain (p : Path) : (v.foundAgain p).isReported = true := by
  unfold foundAgain
  split
  next => rfl
  next => exact FileTree.isReported_lookAtFile v p

theorem exists_finding_of_mem_watched {watched : List Path} {p : Path} (hp : p ∈ watched) :
    ∃ f ∈ v.scan watched, f.path = p :=
  exists_finding_of_mem hp

/-- Every watched directory is met. -/
theorem mem_met_scan {watched : List Path} {p name : Path} (hp : p ∈ watched)
    (hname : v.directory? p = some name) : name.key ∈ v.met (v.scan watched) := by
  obtain ⟨f, hf, rfl⟩ := exists_finding_of_mem_watched (v := v) hp
  exact mem_met_iff.mpr ⟨f, hf, name, hname, rfl⟩

/-- Where no directory is new, each waiting path gives one finding and brings in no other. -/
theorem findings_of_no_new {visited : List Key} {waiting : List Path}
    (h : ∀ p ∈ waiting, ∀ name, v.directory? p = some name → name.key ∈ visited) :
    v.findings visited waiting = waiting.map v.foundAgain := by
  induction waiting with
  | nil => rw [findings, List.map_nil]
  | cons p waiting ih =>
    obtain ⟨hp, hrest⟩ := List.forall_mem_cons.mp h
    rw [List.map_cons, ← ih hrest]
    unfold foundAgain
    cases hname : v.directory? p with
    | none => exact findings_of_file hname
    | some name => exact findings_of_visited hname (hp name hname)

/-- The report of a longer watch set begins with that of the shorter one. -/
theorem entries_append (v : View) (a b : List Path) :
    (v.report (a ++ b)).entries = (v.report a).entries
      ++ (v.findings (v.met (v.scan a)) b).filter Finding.isReported := by
  show (v.scan (a ++ b)).filter Finding.isReported = _
  rw [FileTree.scan_append, List.filter_append]
  rfl

end View

namespace FileTree

variable {t : FileTree}

/-- Two spellings of one path are twins. -/
theorem twins_of_equiv {p p' : Path} (h : p.Equiv p') : t.Twins p p' := by
  unfold Twins FileTree.resolve?
  rw [show p'.key = p.key from Eq.symm h]

theorem modified?_about (q : Path) (f : Finding) : (f.about q).modified? = f.modified? := by
  cases f <;> rfl

/-- The finding `g` repeats for `p` what the report of a watch set says already: that a directory
was entered, or else what stands there under `p`, or under another spelling of it. -/
structure Repeats (t : FileTree) (watched : List Path) (p : Path) (g : Finding) : Prop where
  directory : t.isDirectory p = true → g = .revisited p
  listed : t.isDirectory p = false → ∀ p' ∈ watched, p'.Equiv p →
    ∃ f ∈ (t.view.report watched).entries, f.path = p'
  same : t.isDirectory p = false → ∀ f ∈ (t.view.report watched).entries, f.path = p → g = f
  alike : t.isDirectory p = false → ∀ f ∈ (t.view.report watched).entries, f.path.Equiv p →
    g = f.about p

/-- An entry at a path that is no directory is a look at that path. -/
theorem eq_lookAtFile_of_mem_entries {watched : List Path} {f : Finding}
    (hf : f ∈ (t.view.report watched).entries) (hdir : t.isDirectory f.path = false) :
    f = t.view.lookAtFile f.path := by
  rcases View.finding_cases (List.mem_filter.mp hf).1 with ⟨-, hlook⟩ | ⟨name, hname, -⟩
  · exact hlook
  · have hnone : t.view.directory? f.path = none := isDirectory_eq_false_iff.mp hdir
    exact absurd (hnone.symm.trans hname) (by simp)

theorem repeats_foundAgain (t : FileTree) (watched : List Path) (p : Path) :
    t.Repeats watched p (t.view.foundAgain p) := by
  have hsome : (t.view.directory? p).isSome = t.isDirectory p := t.directory?_isSome p
  have hlook : t.isDirectory p = false → t.view.foundAgain p = t.view.lookAtFile p := by
    intro hdir
    rw [View.foundAgain, hsome, hdir]
    exact if_neg (by simp)
  have hdirectory : t.isDirectory p = true → t.view.foundAgain p = .revisited p := by
    intro hdir
    rw [View.foundAgain, hsome, hdir]
    exact if_pos rfl
  have hnot : ∀ q : Path, q.Equiv p → t.isDirectory p = false → t.isDirectory q = false :=
    fun q hq hdir => (twins_of_equiv hq).isDirectory.symm.trans hdir
  refine ⟨hdirectory, fun hdir p' hp' hequiv => ?_, fun hdir f hf hpath => ?_,
    fun hdir f hf hequiv => ?_⟩
  · obtain ⟨f, hf, rfl⟩ := View.exists_finding_of_mem_watched (v := t.view) hp'
    rcases View.finding_cases hf with ⟨-, hf'⟩ | ⟨name, hname, -⟩
    · refine ⟨f, List.mem_filter.mpr ⟨hf, ?_⟩, rfl⟩
      rw [hf']
      exact isReported_lookAtFile _ _
    · have hnone : t.view.directory? f.path = none :=
        isDirectory_eq_false_iff.mp (hnot f.path hequiv hdir)
      exact absurd (hnone.symm.trans hname) (by simp)
  · subst hpath
    rw [hlook hdir]
    exact (eq_lookAtFile_of_mem_entries hf hdir).symm
  · rw [hlook hdir, (twins_of_equiv hequiv).lookAtFile]
    exact congrArg (Finding.about p)
      (eq_lookAtFile_of_mem_entries hf (hnot f.path hequiv hdir)).symm

/-- A time that is found again stands in the report already. -/
theorem Repeats.mem_times {watched : List Path} {p p' : Path} {g : Finding} {u : Timestamp}
    (h : t.Repeats watched p g) (hp' : p' ∈ watched) (hequiv : p'.Equiv p)
    (hu : g.modified? = some u) :
    u ∈ (t.view.report watched).entries.filterMap Finding.modified? := by
  cases hdir : t.isDirectory p with
  | true =>
    rw [h.directory hdir] at hu
    exact absurd hu (by simp [Finding.modified?])
  | false =>
    obtain ⟨f, hf, hpath⟩ := h.listed hdir p' hp' hequiv
    rw [h.alike hdir f hf (hpath ▸ hequiv), modified?_about] at hu
    exact List.mem_filterMap.mpr ⟨f, hf, hu⟩

/-- **More paths only add entries, and paths watched again add nothing new.** The report of a watch
set is the beginning of the report of every longer one, so the newest time is no lower there. If each
of the paths added is watched already, under whatever spelling, each adds exactly one
entry, in order, that repeats what is known of it; and the newest time stays. -/
theorem report_append (t : FileTree) (watched more : List Path) :
    (t.view.report watched).entries <+: (t.view.report (watched ++ more)).entries ∧
      t.view.latest watched ≤ t.view.latest (watched ++ more) ∧
      ((∀ p ∈ more, ∃ p' ∈ watched, p'.Equiv p) →
        (∃ added, (t.view.report (watched ++ more)).entries
            = (t.view.report watched).entries ++ added ∧
          List.Forall₂ (t.Repeats watched) more added) ∧
        t.view.latest (watched ++ more) = t.view.latest watched) := by
  refine ⟨⟨_, (t.view.entries_append watched more).symm⟩, t.latest_le_append watched more, ?_⟩
  intro hmore
  have hmet : ∀ p ∈ more, ∀ name, t.view.directory? p = some name →
      name.key ∈ t.view.met (t.view.scan watched) := by
    intro p hp name hname
    obtain ⟨p', hp', hequiv⟩ := hmore p hp
    obtain ⟨name', hname', hkey⟩ := (twins_of_equiv hequiv.symm).exists_directory? hname
    rw [← hkey]
    exact View.mem_met_scan hp' hname'
  have hentries : (t.view.report (watched ++ more)).entries
      = (t.view.report watched).entries ++ more.map t.view.foundAgain := by
    rw [View.entries_append, View.findings_of_no_new hmet]
    congr 1
    refine List.filter_eq_self.mpr fun f hf => ?_
    obtain ⟨p, -, rfl⟩ := List.mem_map.mp hf
    exact View.isReported_foundAgain p
  refine ⟨⟨_, hentries, ?_⟩, ?_⟩
  · rw [List.forall₂_map_right_iff, List.forall₂_same]
    exact fun p _ => t.repeats_foundAgain watched p
  · -- what is added shows no time that was not there
    unfold View.latest Report.latest
    rw [hentries, List.filterMap_append]
    refine Timestamp.newest_congr fun u => ?_
    rw [List.mem_append, or_iff_left_iff_imp]
    intro hu
    obtain ⟨g, hg, hgu⟩ := List.mem_filterMap.mp hu
    obtain ⟨p, hp, rfl⟩ := List.mem_map.mp hg
    obtain ⟨p', hp', hequiv⟩ := hmore p hp
    exact (t.repeats_foundAgain watched p).mem_times hp' hequiv hgu

/-- In the directory `w`, which is met first through its file, both are watched again, the file in
another spelling. -/
theorem report_append_cyclic :
    (∀ p ∈ [Path.ofBytes [119], .ofBytes [119, 47, 47, 97]],
        ∃ p' ∈ [Path.ofBytes [119, 47, 97], .ofBytes [119]], p'.Equiv p) ∧
      (∃ added, (cyclic.view.report ([.ofBytes [119, 47, 97], .ofBytes [119]]
            ++ [.ofBytes [119], .ofBytes [119, 47, 47, 97]])).entries
          = (cyclic.view.report [.ofBytes [119, 47, 97], .ofBytes [119]]).entries ++ added ∧
        added.length = 2) ∧
      cyclic.view.latest [.ofBytes [119, 47, 97], .ofBytes [119], .ofBytes [119],
        .ofBytes [119, 47, 47, 97]] = ⟨11000000000⟩ := by
  have hmore : ∀ p ∈ [Path.ofBytes [119], .ofBytes [119, 47, 47, 97]],
      ∃ p' ∈ [Path.ofBytes [119, 47, 97], .ofBytes [119]], p'.Equiv p := by decide
  obtain ⟨-, -, hagain⟩ := report_append cyclic [.ofBytes [119, 47, 97], .ofBytes [119]]
    [.ofBytes [119], .ofBytes [119, 47, 47, 97]]
  obtain ⟨⟨added, hentries, hrepeats⟩, hlatest⟩ := hagain hmore
  refine ⟨hmore, ⟨added, hentries, hrepeats.length_eq.symm⟩, hlatest.trans ?_⟩
  cbv

end FileTree

end PollWatch
