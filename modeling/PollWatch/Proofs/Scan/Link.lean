import Mathlib
import PollWatch.Proofs.FileTree.Reachable
import PollWatch.Proofs.FileTree.Twins
import PollWatch.Proofs.Scan.Account
import PollWatch.Proofs.Scan.Reached

/-!
# Watching a link is watching its target

The scan of a link and that of its target go through the same directories, under differently
spelled paths. They are compared step by step: what waits in the one is, place by place, spelled
below the link with the names with which what waits in the other is spelled below the target
(`Alongside`), and the names of directories that were entered are the same. One step keeps both,
because paths that are spelled alike are twins.

> `report_link`: so both reports have the same entries, place by place, up to the path that an
> entry is about.
-/

namespace PollWatch

namespace Path

/-- The path below `p` with these names, one after another. -/
def descend (p : Path) (names : List Segment) : Path := names.foldl child p

theorem descend_concat (p : Path) (names : List Segment) (s : Segment) :
    p.descend (names ++ [s]) = (p.descend names).child s := by
  unfold descend
  rw [List.foldl_append]
  rfl

end Path

/-- The same reason, at another path. -/
def SkipReason.about (q : Path) : SkipReason → SkipReason
  | .beforeEpoch => .beforeEpoch
  | .fault f => .fault (f.about q)

/-- The same kind of finding with the same time, at another path. -/
def Finding.about (q : Path) : Finding → Finding
  | .observed _ u => .observed q u
  | .skipped _ r => .skipped q (r.about q)
  | .unlisted _ f => .unlisted q (f.about q)
  | .revisited _ => .revisited q
  | .entered _ name children => .entered q name children

namespace FileTree

variable {t : FileTree} {a b : Path}

/-- The two paths are spelled alike, one below `a` and the other below `b`. -/
def Alongside (a b p p' : Path) : Prop :=
  ∃ names : List Segment, (∀ s ∈ names, s.IsOrdinary) ∧ p = a.descend names ∧ p' = b.descend names

theorem alongside_self (a b : Path) : Alongside a b a b :=
  ⟨[], fun _ hs => absurd hs List.not_mem_nil, rfl, rfl⟩

theorem Alongside.child {p p' : Path} (h : Alongside a b p p') {s : Segment} (hs : s.IsOrdinary) :
    Alongside a b (p.child s) (p'.child s) := by
  obtain ⟨names, hnames, rfl, rfl⟩ := h
  refine ⟨names ++ [s], fun s' hs' => ?_, (a.descend_concat names s).symm,
    (b.descend_concat names s).symm⟩
  rcases List.mem_append.mp hs' with hold | hnew
  · exact hnames s' hold
  · rw [List.mem_singleton.mp hnew]
    exact hs

theorem Follows.alongside (h : t.Follows a b) {p p' : Path} (hp : Alongside a b p p') :
    t.Follows p p' := by
  obtain ⟨names, hnames, rfl, rfl⟩ := hp
  unfold Path.descend
  induction names generalizing a b with
  | nil => exact h
  | cons s names ih =>
    exact ih (h.child (hnames s (List.mem_cons_self ..)))
      fun s' hs' => hnames s' (List.mem_cons_of_mem _ hs')

/-- Two findings that stand in one place: at paths spelled alike that are twins, and the same but
for the path. Directories that are entered may be known under names that are spelled differently. -/
structure Matches (t : FileTree) (a b : Path) (f g : Finding) : Prop where
  paths : Alongside a b f.path g.path
  twins : t.Twins f.path g.path
  reported : g.isReported = f.isReported
  same : f.isReported = true → g = f.about g.path

theorem Twins.lookAtFile {p p' : Path} (h : t.Twins p p') :
    t.view.lookAtFile p' = (t.view.lookAtFile p).about p' := by
  have hmod : t.view.modified p' = (t.view.modified p).mapError (Fault.about p') := h.modified
  unfold View.lookAtFile
  rw [hmod]
  cases t.view.modified p with
  | error f => rfl
  | ok i =>
    dsimp only [Except.mapError]
    cases Timestamp.ofInstant? i with
    | none => rfl
    | some u => rfl

/-- Twins that are entered list the same names, or are refused for the same reason. -/
theorem Twins.enter {p p' : Path} (h : t.Twins p p') (name name' : Path) :
    (∃ f, t.view.enter p name = .unlisted p f ∧ t.view.enter p' name' = .unlisted p' (f.about p')) ∨
      ∃ q children, t.get? q = some (.directory children true) ∧
        t.view.enter p name = .entered p name (children.map p.child) ∧
        t.view.enter p' name' = .entered p' name' (children.map p'.child) := by
  have hview : ∀ q, t.view.list q = t.list q := fun _ => rfl
  unfold View.enter
  rw [hview, hview]
  rcases h.list with ⟨f, hp, hp'⟩ | ⟨q, children, hget, hp, hp'⟩
  · rw [hp, hp']
    exact Or.inl ⟨f, rfl, rfl⟩
  · rw [hp, hp']
    exact Or.inr ⟨q, children, hget, rfl, rfl⟩

theorem forall₂_alongside_map {p p' : Path} {children : List Segment}
    (hp : Alongside a b p p') (hnames : ∀ s ∈ children, s.IsOrdinary) :
    List.Forall₂ (Alongside a b) (children.map p.child) (children.map p'.child) := by
  rw [List.forall₂_map_left_iff, List.forall₂_map_right_iff, List.forall₂_same]
  exact fun s hs => hp.child (hnames s hs)

/-- **Two scans in step.** Paths that are spelled alike give the same findings but for the paths, as
long as none of those in the first scan runs into the limit of links. -/
theorem findings_alongside (horderly : t.Orderly) (hab : t.Follows a b) {visited : List Key}
    {waiting waiting' : List Path} (hwaiting : List.Forall₂ (Alongside a b) waiting waiting')
    (hlinks : ∀ f ∈ t.view.findings visited waiting,
      (t.resolve? f.path).isSome ∨ ¬ t.Ends f.path) :
    List.Forall₂ (t.Matches a b) (t.view.findings visited waiting)
      (t.view.findings visited waiting') := by
  fun_induction t.view.findings visited waiting generalizing waiting' with
  | case1 =>
    obtain rfl := List.forall₂_nil_left_iff.mp hwaiting
    rw [View.findings]
    exact .nil
  | case2 visited p waiting hnone ih =>
    obtain ⟨p', waiting', hp, hrest, rfl⟩ := List.forall₂_cons_left_iff.mp hwaiting
    obtain ⟨hhead, htail⟩ := List.forall_mem_cons.mp hlinks
    rw [View.path_lookAtFile] at hhead
    have htwins := (hab.alongside hp).twins hhead
    have hnone' : t.view.directory? p' = none := by
      have hkey := htwins.directory?
      rw [show t.directory? p = none from hnone] at hkey
      exact Option.map_eq_none_iff.mp hkey
    rw [View.findings_of_file hnone']
    refine .cons ⟨?_, ?_, ?_, fun _ => ?_⟩ (ih hrest htail)
    · rwa [View.path_lookAtFile, View.path_lookAtFile]
    · rwa [View.path_lookAtFile, View.path_lookAtFile]
    · rw [isReported_lookAtFile, isReported_lookAtFile]
    · rw [View.path_lookAtFile]
      exact htwins.lookAtFile
  | case3 visited p waiting name hname hv ih =>
    obtain ⟨p', waiting', hp, hrest, rfl⟩ := List.forall₂_cons_left_iff.mp hwaiting
    obtain ⟨hhead, htail⟩ := List.forall_mem_cons.mp hlinks
    have htwins := (hab.alongside hp).twins hhead
    obtain ⟨name', hname', hkey⟩ := htwins.exists_directory? hname
    rw [View.findings_of_visited hname' (by rw [hkey]; exact hv)]
    exact .cons ⟨hp, htwins, rfl, fun _ => rfl⟩ (ih hrest htail)
  | case4 visited p waiting name hname hv ih =>
    obtain ⟨p', waiting', hp, hrest, rfl⟩ := List.forall₂_cons_left_iff.mp hwaiting
    obtain ⟨hhead, htail⟩ := List.forall_mem_cons.mp hlinks
    rw [View.path_enter] at hhead
    have htwins := (hab.alongside hp).twins hhead
    obtain ⟨name', hname', hkey⟩ := htwins.exists_directory? hname
    -- the two names may be spelled differently, but the lists of visited keys stay equal
    rw [View.findings_of_new hname' (by rw [hkey]; exact hv), hkey]
    rcases htwins.enter name name' with
      ⟨f, henter, henter'⟩ | ⟨q, children, hget, henter, henter'⟩
    · rw [henter] at ih htail ⊢
      rw [henter']
      exact .cons ⟨hp, htwins, rfl, fun _ => rfl⟩ (ih hrest htail)
    · rw [henter] at ih htail ⊢
      rw [henter']
      have hchildren : ∀ s ∈ children, s.IsOrdinary := (horderly q _ hget).ordinary
      refine .cons ⟨hp, htwins, rfl, fun hrep => absurd hrep (by simp [Finding.isReported])⟩
        (ih ?_ htail)
      exact List.rel_append (forall₂_alongside_map hp hchildren) hrest

/-- An entry of the report on the one path stands for an entry of the report on the other: it is
about the path that is spelled alike, and the same in all else; and there the tree answers alike. -/
structure StandsFor (t : FileTree) (a b : Path) (f g : Finding) : Prop where
  same : ∃ names, f.path = a.descend names ∧ g = f.about (b.descend names)
  isDirectory : t.isDirectory g.path = t.isDirectory f.path
  canonical :
    (t.canonical g.path).toOption.map Path.key = (t.canonical f.path).toOption.map Path.key
  modified : (t.modified g.path).toOption = (t.modified f.path).toOption

theorem Matches.standsFor {f g : Finding} (h : t.Matches a b f g) (hf : f.isReported = true) :
    t.StandsFor a b f g where
  same := by
    obtain ⟨names, -, hpath, hpath'⟩ := h.paths
    exact ⟨names, hpath, hpath' ▸ h.same hf⟩
  isDirectory := h.twins.isDirectory
  canonical := h.twins.canonical
  modified := by
    rw [h.twins.modified]
    cases t.modified f.path <;> rfl

/-- Entries that stand for each other have the same times. -/
theorem filterMap_modified?_of_standsFor {fs gs : List Finding}
    (h : List.Forall₂ (t.StandsFor a b) fs gs) :
    fs.filterMap Finding.modified? = gs.filterMap Finding.modified? := by
  induction h with
  | nil => rfl
  | @cons f g _ _ hfg _ ih =>
    obtain ⟨names, -, rfl⟩ := hfg.same
    have hsame : (f.about (b.descend names)).modified? = f.modified? := by cases f <;> rfl
    rw [List.filterMap_cons, List.filterMap_cons, hsame, ih]

/-- The report of a scan, from the findings of two scans in step. -/
theorem entries_of_matches {watched watched' : List Path}
    (h : List.Forall₂ (t.Matches a b) (t.view.scan watched) (t.view.scan watched')) :
    List.Forall₂ (t.StandsFor a b) (t.view.report watched).entries
      (t.view.report watched').entries := by
  have hfilter : List.Forall₂ (t.Matches a b) (t.view.report watched).entries
      (t.view.report watched').entries :=
    List.rel_filter (fun f g hfg => (Bool.eq_iff_iff.mp hfg.reported).symm) h
  have hreported : ∀ f ∈ (t.view.report watched).entries, f.isReported = true :=
    fun f hf => (List.mem_filter.mp hf).2
  have hboth := (List.forall₂_and_left _ _).mpr ⟨hreported, hfilter⟩
  exact hboth.imp fun f g hfg => hfg.2.standsFor hfg.1

/-- **Watching a link is watching its target.** If no other link stands on the way to a link or to
its target, and the scan of the link runs into no limit of links, then the scan of the target
reports the same, entry by entry: the same kind with the same time, at the path that is spelled
below the target as the other is below the link, where the tree answers alike. So the newest time
is the same. -/
theorem report_link (ht : t.Reachable) {a target : Path}
    (hlink : t.get? a.key = some (.link target)) (hne : a.key ≠ [])
    (habove : ∀ j, j.IsAncestor a.key → ∀ x, t.get? j ≠ some (.link x))
    (hplain : t.Plain target.key) (htarget : ∀ x, t.get? target.key ≠ some (.link x))
    (hlinks : t.LinksSuffice [a]) :
    List.Forall₂ (t.StandsFor a target) (t.view.report [a]).entries
        (t.view.report [target]).entries ∧
      t.view.latest [a] = t.view.latest [target] := by
  have hfollows : t.Follows a target := follows_link hlink hne habove hplain htarget
  have hstart : List.Forall₂ (Alongside a target) [a] [target] :=
    .cons (alongside_self a target) .nil
  have hentries := entries_of_matches (findings_alongside ht.orderly hfollows hstart hlinks)
  refine ⟨hentries, ?_⟩
  unfold View.latest Report.latest
  rw [filterMap_modified?_of_standsFor hentries]

/-- A directory `w` with a file `a`, a link `b` to `w` itself and a link `c` to the file; and a
link `l` to `w`. -/
def doubled : FileTree :=
  (((FileTree.new.insert (.ofBytes [119, 47, 97]) (.file 11 true)).addLink
    (.ofBytes [119, 47, 98]) (.ofBytes [119])).addLink (.ofBytes [119, 47, 99])
      (.ofBytes [119, 47, 97])).addLink (.ofBytes [108]) (.ofBytes [119])

theorem reachable_doubled : doubled.Reachable :=
  .change (.addLink _ _) (.change (.addLink _ _) (.change (.addLink _ _)
    (.change (.addFile _ 11) .new rfl) rfl) rfl) rfl

theorem linksSuffice_doubled : doubled.LinksSuffice [.ofBytes [108]] := by
  have hall : (doubled.view.scan [.ofBytes [108]]).all
      (fun f => (doubled.resolve? f.path).isSome) = true := by cbv
  exact fun f hf => Or.inl (List.all_eq_true.mp hall f hf)

theorem report_link_doubled :
    doubled.get? (Path.ofBytes [108]).key = some (.link (.ofBytes [119])) ∧
      doubled.LinksSuffice [.ofBytes [108]] ∧
      (doubled.view.report [.ofBytes [108]]).entries.length
        = (doubled.view.report [.ofBytes [119]]).entries.length ∧
      doubled.view.latest [.ofBytes [119]] = ⟨11000000000⟩ := by
  have hlink : doubled.get? (Path.ofBytes [108]).key = some (.link (.ofBytes [119])) := by cbv
  have hkey : (Path.ofBytes [108]).key = [.name ⟨[108], by decide⟩] := by decide
  have htarget : ∀ x, doubled.get? (Path.ofBytes [119]).key ≠ some (.link x) := by
    have hdir : ∃ children, doubled.get? (Path.ofBytes [119]).key
        = some (.directory children true) := ⟨_, by cbv⟩
    obtain ⟨children, hdir⟩ := hdir
    rw [hdir]
    exact fun x => by simp
  have hsingle : ∀ (c : Component) (j : Key), j ≠ [] → j <+: [c] → j = [c] := by
    intro c j hj hpre
    rcases List.prefix_cons_iff.mp hpre with rfl | ⟨l, rfl, hl⟩
    · exact absurd rfl hj
    · rw [List.prefix_nil.mp hl]
  obtain ⟨hentries, hlatest⟩ := report_link reachable_doubled hlink (by decide)
    (fun j hj => absurd (hsingle _ j hj.ne_nil (hkey ▸ hj.begins)) (hkey ▸ hj.ne))
    (fun j hj hpre => by
      rw [hsingle _ j hj hpre]
      exact htarget)
    htarget linksSuffice_doubled
  refine ⟨hlink, linksSuffice_doubled, hentries.length_eq, ?_⟩
  rw [← hlatest]
  cbv

end FileTree

end PollWatch
