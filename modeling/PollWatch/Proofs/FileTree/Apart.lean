import PollWatch.Proofs.FileTree.Locality
import PollWatch.Proofs.FileTree.Straight

/-!
# Changes apart from a watch set

A change away from the watched paths still creates and extends directories above its
own path, and some of these may be above watched paths too. Two facts outlive every
such change (`kept_changedBy`):

> `LinksApart`: no link is at, above or below a watched path;
> `AlikeBelow`: at and below the watched paths, the tree stores what it stored.

The first makes every path below a watched one lead straight to its own key, where the
second applies: so the question what is there has the same answer (`locate_eq_below`). What
stands above a watched path is never asked for, except whether it is a link.
-/

namespace PollWatch

namespace Key

/-- Neither place lies at or below the other. -/
def Unrelated (j k : Key) : Prop := ¬ j <+: k ∧ ¬ k <+: j

instance (j k : Key) : Decidable (j.Unrelated k) :=
  inferInstanceAs (Decidable (¬ j <+: k ∧ ¬ k <+: j))

theorem Unrelated.not_both {j k l : Key} (h : j.Unrelated k) (hj : j <+: l) : ¬ k <+: l := by
  intro hk
  rcases List.prefix_or_prefix_of_prefix hj hk with hle | hle
  · exact h.1 hle
  · exact h.2 hle

end Key

namespace FileTree

/-- The tree after a change; one that overflows changes nothing. -/
def changed (t : FileTree) (c : Change) : FileTree :=
  match t.apply c with
  | .ok u => u
  | .error _ => t

/-- The tree after some changes, one after another. -/
def changedBy (t : FileTree) (cs : List Change) : FileTree := cs.foldl changed t

/-- The path that a change names is unrelated to every watched path. -/
def Change.IsApart (c : Change) (watched : List Path) : Prop :=
  ∀ w ∈ watched, c.path.key.Unrelated w.key

/-- No link is stored at, above or below a watched path. -/
def LinksApart (t : FileTree) (watched : List Path) : Prop :=
  ∀ k target, t.get? k = some (.link target) → ∀ w ∈ watched, k.Unrelated w.key

/-- The keys of all links of a tree. -/
def linkKeys (t : FileTree) : List Key :=
  t.entries.filterMap fun
    | (k, .link _) => some k
    | _ => none

theorem linksApart_of_linkKeys {t : FileTree} {watched : List Path}
    (h : ∀ k ∈ t.linkKeys, ∀ w ∈ watched, k.Unrelated w.key) : t.LinksApart watched := by
  intro k target hk
  exact h k (List.mem_filterMap.mpr ⟨_, mem_of_get? hk, rfl⟩)

/-- At and below the watched paths, `u` stores what `t` stores. -/
def AlikeBelow (t u : FileTree) (watched : List Path) : Prop :=
  ∀ w ∈ watched, ∀ k, w.key <+: k → u.get? k = t.get? k

section Changes

variable {t : FileTree} {watched : List Path} {c : Change}

/-- A change apart from the watch set stores no link in its way: what it makes above its own path
are directories. -/
theorem LinksApart.changed (h : t.LinksApart watched) (hc : c.IsApart watched) :
    (t.changed c).LinksApart watched := by
  intro k target hk w hw
  unfold FileTree.changed at hk
  split at hk
  next u hu =>
    by_cases hpath : k = c.path.key
    · -- here the change may have stored a link, but apart from the watch set
      rw [hpath]
      exact hc w hw
    · rcases keptBut_of_apply hu hpath with hsame | ⟨-, children, listable, hdir⟩
      · exact h k target (hsame.symm.trans hk) w hw
      · rw [hdir] at hk
        exact absurd hk (by simp)
  next => exact h k target hk w hw

/-- Below a watched path, nothing is above the path of a change apart from the watch set. Only `.`
is above everything. -/
theorem not_isAbove_of_isApart (hdot : ∀ w ∈ watched, w.key ≠ [.here]) (hc : c.IsApart watched)
    {w : Path} (hw : w ∈ watched) {k : Key} (hk : w.key <+: k) : ¬ k.IsAbove c.path.key := by
  obtain ⟨-, hnot⟩ := hc w hw
  rintro (rfl | habove)
  · -- only the empty path and `.` have `.` below them
    rcases List.prefix_cons_iff.mp hk with hnil | ⟨l, hl, hlnil⟩
    · rw [hnil] at hnot
      exact hnot List.nil_prefix
    · rw [List.prefix_nil.mp hlnil] at hl
      exact hdot w hw hl
  · exact hnot (hk.trans habove)

theorem alikeBelow_changed (hdot : ∀ w ∈ watched, w.key ≠ [.here]) (hc : c.IsApart watched) :
    t.AlikeBelow (t.changed c) watched := by
  intro w hw k hk
  unfold FileTree.changed
  split
  next u hu =>
    have hpath : k ≠ c.path.key := by
      rintro rfl
      exact (hc w hw).2 hk
    rcases keptBut_of_apply hu hpath with hsame | ⟨habove, -⟩
    · exact hsame
    · exact absurd habove (not_isAbove_of_isApart hdot hc hw hk)
  next => rfl

/-- What every series of changes apart from the watch set leaves as it was. -/
theorem kept_changedBy (hdot : ∀ w ∈ watched, w.key ≠ [.here]) {cs : List Change}
    (hlinks : t.LinksApart watched) (hcs : ∀ c ∈ cs, c.IsApart watched) :
    (t.changedBy cs).LinksApart watched ∧ t.AlikeBelow (t.changedBy cs) watched := by
  induction cs generalizing t with
  | nil => exact ⟨hlinks, fun _ _ _ _ => rfl⟩
  | cons c cs ih =>
    have hc : c.IsApart watched := hcs c (List.mem_cons_self ..)
    obtain ⟨hapart, halike⟩ := ih (hlinks.changed hc) fun d hd => hcs d (List.mem_cons_of_mem _ hd)
    refine ⟨hapart, fun w hw k hk => ?_⟩
    exact (halike w hw k hk).trans (alikeBelow_changed hdot hc w hw k hk)

end Changes

/-- Where no link is near the watched paths, none stands on the way to a path below them. -/
theorem LinksApart.plain {t : FileTree} {watched : List Path} (h : t.LinksApart watched)
    {w : Path} (hw : w ∈ watched) {k : Key} (hk : w.key <+: k) : t.Plain k := by
  intro j _ hj target hlink
  exact (h j target hlink w hw).not_both hj hk

/-- Trees that are alike below the watched paths, with no links near them, have the same entry at
the end of every path below. -/
theorem locate_eq_below {t u : FileTree} {watched : List Path} (ht : t.LinksApart watched)
    (hu : u.LinksApart watched) (halike : t.AlikeBelow u watched) {w p : Path}
    (hw : w ∈ watched) (hp : w.key <+: p.key) : u.locate p = t.locate p := by
  rw [locate_of_plain (hu.plain hw hp), locate_of_plain (ht.plain hw hp), halike w hw p.key hp]

end FileTree

end PollWatch
