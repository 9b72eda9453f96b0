import PollWatch.Proofs.Scan.Findings
import PollWatch.Proofs.Session.Triggering

/-!
# The first poll

A session that has not polled yet remembers zero, which is also what a scan gives that
sees no file. So the first poll acts if the scan gives anything else:

> `first_poll`: it runs the command, once, if and only if the report shows a file
> that was modified after the epoch, and it is unchanged otherwise.

In particular it is unchanged if no file is seen. It is unchanged as well if all files that
are seen were modified at the epoch itself: the scan sees them, but they leave it at zero
(`first_poll_unchanged_epoch`).
-/

namespace PollWatch

namespace Session

theorem Polled.ran_of_triggered {s t : Session Stage} {previous current : Timestamp} {o : Outcome}
    (h : s.Polled (.ok (.triggered previous current o)) t) : s.Ran 1 t.state := by
  cases h with
  | triggered hran => exact hran

variable {spec : WatchSpec} {script : Script} {tree : FileTree}

/-- A first poll that finds nothing newer than the epoch leaves everything as it was. -/
theorem first_poll_of_zero (h : (fresh spec script tree).Unhindered)
    (hzero : tree.view.latest spec.paths = .zero) :
    poll Stage.surroundings (fresh spec script tree) = (.ok .unchanged, fresh spec script tree) :=
  poll_of_same h.looks hzero

/-- Any other first poll runs the command, and remembers what it found. -/
theorem first_poll_of_ne_zero (h : (fresh spec script tree).Unhindered)
    (hne : tree.view.latest spec.paths ≠ .zero) :
    let r := (fresh spec script tree).record
    (∃ o, r.result = .ok (.triggered .zero (tree.view.latest spec.paths) o)) ∧
      r.after.state.commands = [spec.command] ∧ r.after.state.output = completionLine ∧
      r.after.watch.previous = tree.view.latest spec.paths := by
  intro r
  have hpolled : r.before.Polled r.result r.after := poll_cases _
  obtain ⟨hprevious, ⟨hsame, -⟩ | ⟨-, o, hresult⟩⟩ := hpolled.of_unhindered h
  · exact absurd hsame hne
  · rw [hresult] at hpolled
    have hran := hpolled.ran_of_triggered
    exact ⟨⟨o, hresult⟩, hran.commands, hran.output.trans String.empty_append, hprevious⟩

/-- **The first poll** of a session in whose way nothing stands runs the command once if the report
shows a file that was modified after the epoch: from zero to the newest time there is. If it
shows none, in particular if it shows no file at all, the poll is unchanged and does nothing. -/
theorem first_poll (spec : WatchSpec) (script : Script) (tree : FileTree)
    (h : (fresh spec script tree).Unhindered) :
    let r := (fresh spec script tree).record
    let entries := (tree.view.report spec.paths).entries
    ((∃ p u, .observed p u ∈ entries ∧ u ≠ .zero) →
      (∃ o, r.result = .ok (.triggered .zero (tree.view.latest spec.paths) o)) ∧
        r.after.state.commands = [spec.command] ∧ r.after.state.output = completionLine ∧
        r.after.watch.previous = tree.view.latest spec.paths) ∧
    ((∀ p u, .observed p u ∈ entries → u = .zero) →
      r.result = .ok .unchanged ∧ r.after = r.before ∧ r.after.state.commands = []) := by
  intro r entries
  have hzero_iff : tree.view.latest spec.paths = .zero ↔
      ∀ p u, .observed p u ∈ entries → u = .zero := Report.latest_eq_zero_iff
  constructor
  · rintro ⟨p, u, hp, hu⟩
    exact first_poll_of_ne_zero h fun hzero => hu (hzero_iff.mp hzero p u hp)
  · intro hall
    have hpoll := first_poll_of_zero h (hzero_iff.mpr hall)
    have hafter : r.after = r.before := congrArg Prod.snd hpoll
    refine ⟨congrArg Prod.fst hpoll, hafter, ?_⟩
    rw [hafter]
    rfl

/-- A script in which nothing is out of the ordinary. -/
theorem calm_default : ({} : Script).Calm := ⟨rfl, rfl, rfl, fun _ hrun => absurd hrun (by simp)⟩

theorem first_poll_oneFile :
    (fresh ⟨[.ofBytes [119]], "make"⟩ {} oneFile).Unhindered ∧
      (fresh ⟨[.ofBytes [119]], "make"⟩ {} oneFile).record.after.state.commands = ["make"] ∧
      (fresh ⟨[.ofBytes [119]], "make"⟩ {} FileTree.new).record.result = .ok .unchanged := by
  have hone : (fresh ⟨[.ofBytes [119]], "make"⟩ {} oneFile).Unhindered :=
    unhindered_of_calm calm_default
  have hnew : (fresh ⟨[.ofBytes [119]], "make"⟩ {} FileTree.new).Unhindered :=
    unhindered_of_calm calm_default
  have hentries : (oneFile.view.report [.ofBytes [119]]).entries
      = [.observed (.ofBytes [119, 47, 97]) ⟨5000000000⟩] := by cbv
  have hnone : (FileTree.new.view.report [.ofBytes [119]]).entries
      = [.skipped (.ofBytes [119]) (.fault (.notFound (.ofBytes [119])))] := by cbv
  refine ⟨hone, ?_, ?_⟩
  · refine ((first_poll _ _ _ hone).1 ⟨.ofBytes [119, 47, 97], ⟨5000000000⟩, ?_, by decide⟩).2.1
    exact hentries ▸ List.mem_singleton_self _
  · refine ((first_poll _ _ _ hnew).2 fun p u hp => ?_).1
    have hmem : Finding.observed p u ∈ [_] := hnone ▸ hp
    exact absurd (List.mem_singleton.mp hmem) (by simp)

/-- A file `w` of the epoch itself. -/
def epochal : FileTree := FileTree.new.insert (.ofBytes [119]) (.file 0 true)

/-- A file of the epoch is seen, and still the first poll runs nothing. -/
theorem first_poll_unchanged_epoch :
    epochal.Reachable ∧
      (epochal.view.report [.ofBytes [119]]).entries = [.observed (.ofBytes [119]) .zero] ∧
      (fresh ⟨[.ofBytes [119]], "make"⟩ {} epochal).Unhindered ∧
      (fresh ⟨[.ofBytes [119]], "make"⟩ {} epochal).record.result = .ok .unchanged ∧
      (fresh ⟨[.ofBytes [119]], "make"⟩ {} epochal).record.after.state.commands = [] := by
  have hlatest : epochal.view.latest [.ofBytes [119]] = .zero := by cbv
  have hunhindered : (fresh ⟨[.ofBytes [119]], "make"⟩ {} epochal).Unhindered :=
    unhindered_of_calm calm_default
  have hpoll := first_poll_of_zero hunhindered hlatest
  refine ⟨.change (.addFile _ 0) .new rfl, by cbv, hunhindered, congrArg Prod.fst hpoll, ?_⟩
  exact congrArg (fun r => r.2.state.commands) hpoll

end Session

end PollWatch
