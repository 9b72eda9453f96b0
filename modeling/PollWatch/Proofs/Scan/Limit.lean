import Mathlib
import PollWatch.Proofs.FileTree.Cycle
import PollWatch.Proofs.Scan.Reached
import PollWatch.Proofs.Scan.Retold

/-!
# The limit of links

A lookup may lead through 32 links, however they are spread over the components of its path.
Up to there it is the walk without a bound. Beyond, and so round every cycle, it is refused,
and every question about the path is answered by that refusal:

> `resolve?_within_limit`: a path is found exactly where the unbounded walk ends within 32
> links; else it is `Refused`.

A path that is found names no link any more, as the walk stops at each component only
where there is none (`Expands.not_link`). Only the empty path has no component.
-/

namespace PollWatch.FileTree

variable {t : FileTree}

/-- The path leads through too many links: it is no directory, every other question about it is
answered by this fault, and a scan that comes to it skips it, with one entry, and goes on. -/
structure Refused (t : FileTree) (p : Path) : Prop where
  locate : t.locate p = .error (.tooManyLinks p)
  isDirectory : t.isDirectory p = false
  list : t.list p = .error (.tooManyLinks p)
  modified : t.modified p = .error (.tooManyLinks p)
  canonical : t.canonical p = .error (.tooManyLinks p)
  message : (Fault.tooManyLinks p).message = "too many levels of symbolic links: " ++ p.quoted
  scanned : ∀ visited waiting, t.view.findings visited (p :: waiting)
    = .skipped p (.fault (.tooManyLinks p)) :: t.view.findings visited waiting
  reported : (t.view.report [p]).entries = [.skipped p (.fault (.tooManyLinks p))]

/-- What the lookup gives up on is refused. -/
theorem refused_of_resolve? {p : Path} (h : t.resolve? p = none) : t.Refused p := by
  have hlocate : t.locate p = .error (.tooManyLinks p) := by
    unfold FileTree.locate
    rw [h]
  have hdir : t.isDirectory p = false := by
    unfold FileTree.isDirectory
    rw [hlocate]
  have hlist : t.list p = .error (.tooManyLinks p) := by
    unfold FileTree.list
    rw [hlocate]
  have hmodified : t.modified p = .error (.tooManyLinks p) := by
    unfold FileTree.modified
    rw [hlocate]
  have hcanonical : t.canonical p = .error (.tooManyLinks p) := by
    unfold FileTree.canonical
    rw [hlocate]
  have hscanned : ∀ visited waiting, t.view.findings visited (p :: waiting)
      = .skipped p (.fault (.tooManyLinks p)) :: t.view.findings visited waiting := by
    intro visited waiting
    have hnone : t.view.directory? p = none := isDirectory_eq_false_iff.mp hdir
    rw [View.findings_of_file hnone, lookAtFile_of_error hmodified]
  have hreported : (t.view.report [p]).entries
      = [.skipped p (.fault (.tooManyLinks p))] := by
    show (t.view.findings [] [p]).filter Finding.isReported = _
    rw [hscanned, View.findings]
    rfl
  exact ⟨hlocate, hdir, hlist, hmodified, hcanonical, rfl, hscanned, hreported⟩

/-- **The lookup is the unbounded walk, cut at 32 links.** It finds what that walk ends at within
32 links in all, and refuses every other path. The unbounded walk goes on for ever exactly where it
enters a cycle of links, so each such path is refused. What is found, but for the empty path, is no
link. -/
theorem resolve?_within_limit (t : FileTree) (p : Path) :
    (∀ r, t.resolve? p = some r ↔ ∃ n, n ≤ 32 ∧ t.LeadsTo p n r) ∧
      ((¬ ∃ n r, n ≤ 32 ∧ t.LeadsTo p n r) → t.Refused p) ∧
      (t.EntersCycle p ↔ ¬ t.Ends p) ∧
      (t.EntersCycle p → t.Refused p) ∧
      (p ≠ .empty → ∀ r, t.resolve? p = some r →
        ∀ target, t.get? r.key ≠ some (.link target)) := by
  have hwithin : ∀ r, t.resolve? p = some r ↔ ∃ n, n ≤ 32 ∧ t.LeadsTo p n r :=
    fun r => resolve?_eq_some_iff
  have hbeyond : (¬ ∃ n r, n ≤ 32 ∧ t.LeadsTo p n r) → t.Refused p := by
    intro hnot
    refine refused_of_resolve? (Option.eq_none_iff_forall_ne_some.mpr fun r hr => ?_)
    obtain ⟨n, hn, hlead⟩ := (hwithin r).mp hr
    exact hnot ⟨n, r, hn, hlead⟩
  have hcycle : t.EntersCycle p ↔ ¬ t.Ends p := by rw [ends_iff, not_not]
  refine ⟨hwithin, hbeyond, hcycle, fun henters => hbeyond ?_, fun hne r hr target => ?_⟩
  · rintro ⟨n, r, -, hlead⟩
    exact hcycle.mp henters ⟨n, r, hlead⟩
  · obtain ⟨n, -, hlead⟩ := (hwithin r).mp hr
    exact Expands.not_link hlead (Path.key_ne_nil hne) target

/-- The path `w/b/b/…`, which leads to `w` over as many links as it has names `b`. -/
def circuit (n : Nat) : Path := .ofBytes (119 :: (List.replicate n [47, 98]).flatten)

/-- In the directory `w` with a link to itself, 32 links are followed and 33 are not, and the link
`w/c` to itself never. -/
theorem resolve?_within_limit_cyclic :
    (∃ n, n ≤ 32 ∧ cyclic.LeadsTo (circuit 32) n (.ofBytes [119])) ∧
      (∀ target, cyclic.get? [.name ⟨[119], by decide⟩] ≠ some (.link target)) ∧
      cyclic.Refused (circuit 33) ∧ cyclic.EntersCycle (.ofBytes [119, 47, 99]) ∧
      cyclic.Refused (.ofBytes [119, 47, 99]) := by
  have hlast : cyclic.resolve? (circuit 32) = some (.ofBytes [119]) := by cbv
  have hnone : cyclic.resolve? (circuit 33) = none := by decide +kernel
  obtain ⟨hwithin, -, -, -, hnolink⟩ := resolve?_within_limit cyclic (circuit 32)
  obtain ⟨hwithin', hbeyond, -, -, -⟩ := resolve?_within_limit cyclic (circuit 33)
  obtain ⟨-, -, hcycle, hrefused, -⟩ := resolve?_within_limit cyclic (.ofBytes [119, 47, 99])
  have henters := hcycle.mpr not_ends_cyclic
  refine ⟨(hwithin _).mp hlast, hnolink (by decide) _ hlast, hbeyond ?_, henters,
    hrefused henters⟩
  rintro ⟨n, r, hn, hlead⟩
  exact absurd ((hwithin' r).mpr ⟨n, hn, hlead⟩) (by rw [hnone]; simp)

end PollWatch.FileTree
