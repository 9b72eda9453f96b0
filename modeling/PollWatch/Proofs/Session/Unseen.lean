import Mathlib
import PollWatch.Proofs.Scan.Frame
import PollWatch.Proofs.Session.History

/-!
# Changes that a session does not see

> `unseen_apart`: whatever happens apart from the watch set, the report of its scan
> stays the same, and a session that has acted on it has nothing to act on.

The two runs that are compared here differ in the tree alone. A change apart from the
watch set reaches no answer that the scan asks for (`scan_changedBy`), and a poll learns of the
tree by its scan only.
-/

namespace PollWatch.Session

theorem changeTree_eq_changed (s : Session Stage) (c : FileTree.Change) :
    s.changeTree c = ⟨s.watch, { s.state with tree := s.state.tree.changed c }⟩ := by
  unfold changeTree FileTree.changed
  cases s.state.tree.apply c with
  | ok u => rfl
  | error e => rfl

/-- Changes from outside reach the tree, and nothing else of a session. -/
theorem after_changes (s : Session Stage) (cs : List FileTree.Change) :
    s.after (cs.map .change) = ⟨s.watch, { s.state with tree := s.state.tree.changedBy cs }⟩ := by
  induction cs generalizing s with
  | nil => rfl
  | cons c cs ih =>
    rw [List.map_cons, after, step, changeTree_eq_changed, ih]
    rfl

/-- A scan of two trees with the same findings ends alike, deadly path or not. -/
theorem look_of_scan_eq {stage : Stage} {u : FileTree} {paths : List Path}
    (h : u.view.scan paths = stage.tree.view.scan paths) :
    ({ stage with tree := u } : Stage).look paths = stage.look paths := by
  unfold Stage.look
  dsimp only
  rw [h]

/-- Changes that leave the findings of a scan as they are give a session that has acted on them
nothing to act on. -/
theorem poll_after_changes {s : Session Stage} {cs : List FileTree.Change} {found : List Finding}
    (hscan : (s.state.tree.changedBy cs).view.scan s.watch.paths
      = s.state.tree.view.scan s.watch.paths)
    (hfound : s.state.look s.watch.paths = .ok found)
    (hprevious : s.watch.previous = latestOf found) :
    poll Stage.surroundings (s.after (cs.map .change))
      = (.ok .unchanged, s.after (cs.map .change)) := by
  have hlook : s.state.look s.watch.paths = .ok (s.state.tree.view.scan s.watch.paths) :=
    look_eq_scan ⟨found, hfound⟩
  obtain rfl : found = s.state.tree.view.scan s.watch.paths :=
    Except.ok.inj (hfound.symm.trans hlook)
  -- the session after the changes differs in its tree, and has the same findings
  rw [after_changes]
  refine poll_of_same ⟨_, (look_of_scan_eq hscan).trans hfound⟩ ?_
  rw [newest_eq_latestOf]
  exact (congrArg latestOf hscan).trans hprevious.symm

/-- **What happens apart from the watch set goes unseen.** Where no link is at, above or below a
watched path, and `.` is not watched, changes whose paths are unrelated to all watched paths leave
every entry of the report as it was. A session that has acted on the scan of the tree before them
finds nothing new after them, and runs nothing. -/
theorem unseen_apart {t : FileTree} {watched : List Path} {cs : List FileTree.Change}
    (hdot : ∀ w ∈ watched, w.key ≠ [.here]) (hlinks : t.LinksApart watched)
    (hcs : ∀ c ∈ cs, c.IsApart watched) :
    (t.changedBy cs).view.report watched = t.view.report watched ∧
      ∀ s : Session Stage, s.state.tree = t → s.watch.paths = watched →
        ∀ found, s.state.look watched = .ok found → s.watch.previous = latestOf found →
          let r := (s.after (cs.map .change)).record
          r.result = .ok .unchanged ∧ r.after = r.before ∧
            r.after.state.commands = s.state.commands ∧ r.after.watch = s.watch := by
  have hscan := FileTree.scan_changedBy hdot hlinks hcs
  constructor
  · unfold View.report
    rw [hscan]
  · rintro s rfl rfl found hfound hprevious r
    have hpoll := poll_after_changes hscan hfound hprevious
    have hresult : r.result = .ok .unchanged := congrArg Prod.fst hpoll
    have hend : r.after = s.after (cs.map .change) := congrArg Prod.snd hpoll
    refine ⟨hresult, hend, ?_, ?_⟩
    · rw [hend, after_changes]
    · rw [hend, after_changes]

/-- A file `d/w/a` of five seconds, and a link `l` to the directory `d/w`. -/
def aside : FileTree :=
  (FileTree.new.insert (.ofBytes [100, 47, 119, 47, 97]) (.file 5 true)).addLink
    (.ofBytes [108]) (.ofBytes [100, 47, 119])

/-- A file is added next to `d/w`, with a directory that it takes, and a link to `d/w` itself; a
new tree grows and the link `l` is deleted. -/
def besides : List FileTree.Change :=
  [.addFile (.ofBytes [100, 47, 120, 47, 121]) 9,
    .addLink (.ofBytes [100, 47, 122]) (.ofBytes [100, 47, 119]),
    .addDirectory (.ofBytes [101]), .deny (.ofBytes [100, 47, 120]), .vanish (.ofBytes [108]),
    .remove (.ofBytes [100, 47, 122])]

theorem linksApart_aside : aside.LinksApart [.ofBytes [100, 47, 119]] := by
  have hkeys : aside.linkKeys = [(Path.ofBytes [108]).key] := by cbv
  refine FileTree.linksApart_of_linkKeys ?_
  rw [hkeys]
  decide

theorem unseen_apart_aside :
    (aside.changedBy besides).view.report [.ofBytes [100, 47, 119]]
        = aside.view.report [.ofBytes [100, 47, 119]] ∧
      (after ⟨⟨⟨[.ofBytes [100, 47, 119]], "make"⟩, ⟨5000000000⟩⟩, { script := {}, tree := aside }⟩
        (besides.map .change)).record.result = .ok .unchanged := by
  have hcs : ∀ c ∈ besides, c.IsApart [.ofBytes [100, 47, 119]] := by
    intro c hc w hw
    obtain rfl : w = .ofBytes [100, 47, 119] := by simpa using hw
    revert c
    decide
  have hdot : ∀ w ∈ [Path.ofBytes [100, 47, 119]], w.key ≠ [.here] := by decide
  obtain ⟨hreport, hpoll⟩ := unseen_apart hdot linksApart_aside hcs
  refine ⟨hreport, ?_⟩
  exact (hpoll _ rfl rfl _ rfl (by cbv)).1

end PollWatch.Session
