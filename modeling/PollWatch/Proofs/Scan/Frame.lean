import PollWatch.Proofs.FileTree.Apart
import PollWatch.Proofs.Scan.Visited

/-!
# What a scan reads

A scan asks about the paths that it reaches, and about no others. So it cannot tell two file
systems apart that answer alike there:

> `scan_eq_of_alike`: the findings are the same, one by one.

In a tree, whatever is reached from a watched path is spelled below it
(`exists_prefix_of_reaches`). That makes changes apart from a watch set invisible to its
scan: `scan_changedBy`.
-/

namespace PollWatch

namespace View

/-- Asked about `p`, two file systems give the same answers. -/
structure AlikeAt (v v' : View) (p : Path) : Prop where
  directory : v'.directory? p = v.directory? p
  list : v'.list p = v.list p
  modified : v'.modified p = v.modified p

variable {v v' : View}

theorem AlikeAt.lookAtFile {p : Path} (h : v.AlikeAt v' p) : v'.lookAtFile p = v.lookAtFile p := by
  unfold View.lookAtFile
  rw [h.modified]

theorem AlikeAt.enter {p : Path} (h : v.AlikeAt v' p) (name : Path) :
    v'.enter p name = v.enter p name := by
  unfold View.enter
  rw [h.list]

theorem findings_eq_of_alike {watched : List Path}
    (halike : ∀ p, v.Reaches watched p → v.AlikeAt v' p) {visited : List Key}
    {waiting : List Path} (hwaiting : ∀ p ∈ waiting, v.Reaches watched p) :
    v'.findings visited waiting = v.findings visited waiting := by
  fun_induction v.findings visited waiting with
  | case1 => rw [View.findings]
  | case2 visited p waiting hnone ih =>
    have hp := halike p (hwaiting p (List.mem_cons_self ..))
    rw [findings_of_file (hp.directory.trans hnone), hp.lookAtFile,
      ih fun q hq => hwaiting q (List.mem_cons_of_mem _ hq)]
  | case3 visited p waiting name hname hv ih =>
    have hp := halike p (hwaiting p (List.mem_cons_self ..))
    rw [findings_of_visited (hp.directory.trans hname) hv,
      ih fun q hq => hwaiting q (List.mem_cons_of_mem _ hq)]
  | case4 visited p waiting name hname hv ih =>
    have hreached := hwaiting p (List.mem_cons_self ..)
    have hp := halike p hreached
    rw [findings_of_new (hp.directory.trans hname) hv, hp.enter, ih fun c hc => ?_]
    -- the entries that come to wait are reached as well
    rcases List.mem_append.mp hc with hc | hc
    · exact reaches_of_mem_enter hreached hname hc
    · exact hwaiting c (List.mem_cons_of_mem _ hc)

theorem scan_eq_of_alike {watched : List Path}
    (halike : ∀ p, v.Reaches watched p → v.AlikeAt v' p) : v'.scan watched = v.scan watched :=
  findings_eq_of_alike halike fun _ hp => .watched hp

end View

namespace FileTree

/-- Whatever is reached from a watch set is spelled below a watched path. -/
theorem exists_prefix_of_reaches {t : FileTree} {watched : List Path} {p : Path}
    (h : t.view.Reaches watched p) : ∃ w ∈ watched, w.key <+: p.key := by
  induction h with
  | watched hp => exact ⟨_, hp, List.prefix_rfl⟩
  | @entry p c entries _ _ hlist hc ih =>
    obtain ⟨w, hw, hprefix⟩ := ih
    obtain ⟨_, children, -, -, rfl⟩ := list_eq_ok_iff.mp hlist
    obtain ⟨s, -, rfl⟩ := List.mem_map.mp hc
    exact ⟨w, hw, hprefix.trans (Path.key_prefix_child p s)⟩

/-- Two trees that find the same entry at `p` answer alike there. -/
theorem alikeAt_of_locate_eq {t u : FileTree} {p : Path} (h : u.locate p = t.locate p) :
    t.view.AlikeAt u.view p where
  directory := by
    show u.directory? p = t.directory? p
    unfold directory?
    rw [h]
  list := by
    show u.list p = t.list p
    unfold list
    rw [h]
  modified := by
    show u.modified p = t.modified p
    unfold modified
    rw [h]

/-- Changes apart from a watch set, near which there are no links, are invisible to its scan. -/
theorem scan_changedBy {t : FileTree} {watched : List Path} {cs : List Change}
    (hdot : ∀ w ∈ watched, w.key ≠ [.here]) (hlinks : t.LinksApart watched)
    (hcs : ∀ c ∈ cs, c.IsApart watched) :
    (t.changedBy cs).view.scan watched = t.view.scan watched := by
  obtain ⟨hapart, halike⟩ := kept_changedBy hdot hlinks hcs
  refine View.scan_eq_of_alike fun p hp => ?_
  obtain ⟨w, hw, hprefix⟩ := exists_prefix_of_reaches hp
  exact alikeAt_of_locate_eq (locate_eq_below hlinks hapart halike hw hprefix)

end FileTree

end PollWatch
