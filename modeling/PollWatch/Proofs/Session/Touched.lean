import Mathlib
import PollWatch.Proofs.Scan.Retold
import PollWatch.Proofs.Session.Triggering

/-!
# A file is touched, denied or lost

What happens to one file shows in the report at the paths that lead to it, and nowhere else:

> `touches_own_entries`: the entries at those paths are told anew, in their places, and all others
> stay as they were.

So a session that has acted on the scan from before acts again if a file that it sees gets a time
newer than all that it has seen (`poll_after_touch`).
-/

namespace PollWatch.Session

/-- The session after a file of its tree was given another time. -/
theorem step_setModified {s : Session Stage} {p : Path} {seconds n : Nat} {readable : Bool}
    (hfile : s.state.tree.get? p.key = some (.file seconds readable))
    (hn : n ≤ FileTree.maxSeconds) :
    s.step (.change (.setModified p n))
      = ⟨s.watch, { s.state with tree := s.state.tree.set p.key (.file n readable) }⟩ := by
  have happly : s.state.tree.apply (.setModified p n) = .ok _ :=
    FileTree.setModified_of_file hfile hn
  show s.changeTree _ = _
  unfold changeTree
  rw [happly]

/-- A session that has acted on a scan, and sees a file in it which gets a newer time than all that
it saw, runs its command. If nothing stands in its way, it tells and remembers that time. -/
theorem poll_after_touch {s : Session Stage} {p : Path} {seconds n : Nat}
    (hfile : s.state.tree.get? p.key = some (.file seconds true)) (hn : n ≤ FileTree.maxSeconds)
    (hprevious : s.watch.previous = s.newest)
    (hnew : s.watch.previous.nanos < n * Timestamp.perSecond)
    (hseen : ∃ f ∈ (s.state.tree.view.report s.watch.paths).entries,
      s.state.tree.EndsAt f.path p.key) :
    let r := (s.step (.change (.setModified p n))).record
    ((∃ found, r.before.state.look s.watch.paths = .ok found) →
      r.after.state.commands = s.state.commands ++ [s.watch.command]) ∧
    (r.before.Unhindered →
      (∃ o, r.result = .ok (.triggered s.watch.previous ⟨n * Timestamp.perSecond⟩ o)) ∧
        r.after.watch.previous = ⟨n * Timestamp.perSecond⟩) := by
  intro r
  have hbefore : r.before
      = ⟨s.watch, { s.state with tree := s.state.tree.set p.key (.file n true) }⟩ :=
    step_setModified hfile hn
  have hwatch : r.before.watch = s.watch := by rw [hbefore]
  have hcommands : r.before.state.commands = s.state.commands := by rw [hbefore]
  have hnewest : r.before.newest = ⟨n * Timestamp.perSecond⟩ := by
    rw [hbefore]
    exact FileTree.latest_setModified hfile (by rw [hprevious] at hnew; exact hnew) hseen
  have hne : r.before.newest ≠ r.before.watch.previous := by
    intro heq
    rw [hwatch, hnewest] at heq
    rw [← heq] at hnew
    exact absurd hnew (Nat.lt_irrefl _)
  have hpolled : r.before.Polled r.result r.after := poll_cases _
  constructor
  · intro hlook
    rw [← hwatch] at hlook
    rw [(hpolled.of_differs hlook hne).1, hcommands, hwatch]
  · intro hunhindered
    obtain ⟨hafter, ⟨hsame, -⟩ | ⟨-, o, hresult⟩⟩ := hpolled.of_unhindered hunhindered
    · exact absurd hsame hne
    · rw [hnewest] at hafter hresult
      rw [hwatch] at hresult
      exact ⟨⟨o, hresult⟩, hafter⟩

/-- **A change of one file shows at the paths that lead to it.** After a file was given another
time, was denied or was lost, the report is the one from before with the entries at those paths
told anew, each in its place: seen with the new time unless the file may not be read, not permitted,
or not found. A session that has acted on the scan from before and sees the file, acts on a new time
that is newer than all it has seen. -/
theorem touches_own_entries {t : FileTree} {p : Path} {seconds : Nat} {readable : Bool}
    (hfile : t.get? p.key = some (.file seconds readable)) (watched : List Path) :
    let entries := (t.view.report watched).entries
    let retell := fun g : Finding → Finding =>
      entries.map fun f => if t.EndsAt f.path p.key then g f else f
    (∀ n ≤ FileTree.maxSeconds, ∃ u, t.setModified p n = .ok u ∧
      (u.view.report watched).entries = retell fun f =>
        if readable then .observed f.path ⟨n * Timestamp.perSecond⟩ else f) ∧
    ((t.deny p).view.report watched).entries
      = retell (fun f => .skipped f.path (.fault (.permissionDenied f.path))) ∧
    ((t.vanish p).view.report watched).entries
      = retell (fun f => .skipped f.path (.fault (.notFound f.path))) ∧
    ∀ n ≤ FileTree.maxSeconds, ∀ s : Session Stage, s.state.tree = t → s.watch.paths = watched →
      s.watch.previous = t.view.latest watched → readable = true →
      (∃ f ∈ entries, t.EndsAt f.path p.key) →
      s.watch.previous.nanos < n * Timestamp.perSecond →
        let r := (s.step (.change (.setModified p n))).record
        ((∃ found, r.before.state.look watched = .ok found) →
          r.after.state.commands = s.state.commands ++ [s.watch.command]) ∧
        (r.before.Unhindered →
          (∃ o, r.result = .ok (.triggered s.watch.previous ⟨n * Timestamp.perSecond⟩ o)) ∧
            r.after.watch.previous = ⟨n * Timestamp.perSecond⟩) := by
  intro entries retell
  refine ⟨fun n hn => ?_, ?_, ?_, ?_⟩
  · exact ⟨_, FileTree.setModified_of_file hfile hn, FileTree.entries_setModified hfile n watched⟩
  · rw [FileTree.deny_of_file hfile]
    exact FileTree.entries_deny hfile watched
  · exact FileTree.entries_vanish hfile watched
  · rintro n hn s rfl rfl hprevious rfl hseen hnew
    exact poll_after_touch hfile hn hprevious hnew hseen

/-- Two files `w/a` and `w/b`, a link `w/l` to the first of them, and a link `m` to the directory
that they are in. -/
def mirrored : FileTree :=
  (((FileTree.new.insert (.ofBytes [119, 47, 97]) (.file 5 true)).insert
    (.ofBytes [119, 47, 98]) (.file 6 true)).addLink (.ofBytes [119, 47, 108])
      (.ofBytes [119, 47, 97])).addLink (.ofBytes [109]) (.ofBytes [119])

/-- The file `w/a` is seen as `m/a`, and through a second link as `m/l`. -/
theorem touches_own_entries_mirrored :
    mirrored.get? (Path.ofBytes [119, 47, 97]).key = some (.file 5 true) ∧
      ((mirrored.vanish (.ofBytes [119, 47, 97])).view.report [.ofBytes [109]]).entries
        = [.skipped (.ofBytes [109, 47, 97]) (.fault (.notFound (.ofBytes [109, 47, 97]))),
          .observed (.ofBytes [109, 47, 98]) ⟨6000000000⟩,
          .skipped (.ofBytes [109, 47, 108]) (.fault (.notFound (.ofBytes [109, 47, 108])))] ∧
      (step ⟨⟨⟨[.ofBytes [109]], "make"⟩, ⟨6000000000⟩⟩, { script := {}, tree := mirrored }⟩
        (.change (.setModified (.ofBytes [119, 47, 97]) 7))).record.after.watch.previous
          = ⟨7000000000⟩ := by
  have hfile : mirrored.get? (Path.ofBytes [119, 47, 97]).key = some (.file 5 true) := by cbv
  have hentries : (mirrored.view.report [.ofBytes [109]]).entries
      = [.observed (.ofBytes [109, 47, 97]) ⟨5000000000⟩,
        .observed (.ofBytes [109, 47, 98]) ⟨6000000000⟩,
        .observed (.ofBytes [109, 47, 108]) ⟨5000000000⟩] := by cbv
  have hcalm : ({} : Script).Calm := ⟨rfl, rfl, rfl, fun _ hrun => absurd hrun (by simp)⟩
  obtain ⟨-, -, hlost, hpoll⟩ := touches_own_entries hfile [.ofBytes [109]]
  refine ⟨hfile, ?_, ?_⟩
  · rw [hlost, hentries]
    cbv
  · have hseen : ∃ f ∈ (mirrored.view.report [.ofBytes [109]]).entries,
        mirrored.EndsAt f.path (Path.ofBytes [119, 47, 97]).key := by
      rw [hentries]
      exact ⟨_, List.mem_cons_self .., by cbv⟩
    refine ((hpoll 7 (by decide) _ rfl rfl (by cbv) rfl hseen (by decide)).2 ?_).2
    exact unhindered_of_calm (by rw [step_setModified hfile (by decide)]; exact hcalm)

end PollWatch.Session
