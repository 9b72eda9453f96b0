import Mathlib
import PollWatch.Proofs.Scan.Account
import PollWatch.Proofs.Scan.Frame

/-!
# One file changes

Two trees are compared here that differ in a file: under one key the first stores a file, and the
second another one or nothing at all. They store the same links and the same directories. So every
path leads to the same place in both, and a scan of the one takes each turn that a scan of the
other takes:

> `findings_refiled`: the findings are the same, place by place, but for those whose paths lead to
> the file. These are looked at anew.

A path that leads to a file is no directory, so it is in the report before and after
(`entries_refiled`).
-/

namespace PollWatch.FileTree

variable {t u : FileTree} {k : Key}

/-! ## The same links -/

/-- Both trees store the same links. -/
def SameLinks (t u : FileTree) : Prop :=
  ∀ j target, u.get? j = some (.link target) ↔ t.get? j = some (.link target)

theorem SameLinks.symm (h : t.SameLinks u) : u.SameLinks t := fun j target => (h j target).symm

theorem Chases.of_sameLinks {p q : Path} {n : Nat} (h : t.Chases p n q) (hlinks : t.SameLinks u) :
    u.Chases p n q := by
  induction h with
  | stop hp => exact .stop fun target hlink => hp target ((hlinks _ target).mp hlink)
  | hop hlink _ ih => exact .hop ((hlinks _ _).mpr hlink) ih

theorem Expands.of_sameLinks {l : Key} {p q : Path} {n : Nat} (h : t.Expands l p n q)
    (hlinks : t.SameLinks u) : u.Expands l p n q := by
  induction h with
  | nil => exact .nil
  | cons hchase _ ih => exact .cons (hchase.of_sameLinks hlinks) ih

/-- Where a path leads is decided by the links alone. -/
theorem resolve?_of_sameLinks (hlinks : t.SameLinks u) (p : Path) :
    u.resolve? p = t.resolve? p := by
  refine Option.ext fun q => ?_
  rw [resolve?_eq_some_iff, resolve?_eq_some_iff]
  constructor
  · rintro ⟨n, hn, hlead⟩
    exact ⟨n, hn, hlead.of_sameLinks hlinks.symm⟩
  · rintro ⟨n, hn, hlead⟩
    exact ⟨n, hn, hlead.of_sameLinks hlinks⟩

/-! ## A path that leads to the file -/

/-- The path leads to the place `k`, over whatever links. -/
def EndsAt (t : FileTree) (p : Path) (k : Key) : Prop := (t.resolve? p).map Path.key = some k

instance (t : FileTree) (p : Path) (k : Key) : Decidable (t.EndsAt p k) :=
  inferInstanceAs (Decidable ((t.resolve? p).map Path.key = some k))

theorem EndsAt.locate {p : Path} (h : t.EndsAt p k) : ∃ q, t.locate p = .ok (q, t.get? k) := by
  obtain ⟨q, hq, rfl⟩ := Option.map_eq_some_iff.mp h
  exact ⟨q, locate_eq_ok_iff.mpr ⟨hq, rfl⟩⟩

theorem lookAtFile_of_error {p : Path} {f : Fault} (h : t.modified p = .error f) :
    t.view.lookAtFile p = .skipped p (.fault f) := by
  have hview : t.view.modified p = .error f := h
  unfold View.lookAtFile
  rw [hview]

theorem EndsAt.lookAtFile_of_readable {p : Path} (h : t.EndsAt p k) {seconds : Nat}
    (hget : t.get? k = some (.file seconds true)) :
    t.view.lookAtFile p = .observed p ⟨seconds * Timestamp.perSecond⟩ := by
  obtain ⟨q, hq⟩ := h.locate
  have hview : t.view.modified p = .ok (seconds * Timestamp.perSecond : Nat) := by
    show t.modified p = _
    unfold modified
    rw [hq, hget]
  unfold View.lookAtFile
  rw [hview]
  dsimp only
  rw [Timestamp.ofInstant?_eq_some_iff.mpr rfl]

theorem EndsAt.lookAtFile_of_denied {p : Path} (h : t.EndsAt p k) {seconds : Nat}
    (hget : t.get? k = some (.file seconds false)) :
    t.view.lookAtFile p = .skipped p (.fault (.permissionDenied p)) := by
  obtain ⟨q, hq⟩ := h.locate
  refine lookAtFile_of_error ?_
  unfold modified
  rw [hq, hget]

theorem EndsAt.lookAtFile_of_missing {p : Path} (h : t.EndsAt p k) (hget : t.get? k = none) :
    t.view.lookAtFile p = .skipped p (.fault (.notFound p)) := by
  obtain ⟨q, hq⟩ := h.locate
  refine lookAtFile_of_error ?_
  unfold modified
  rw [hq, hget]

/-! ## Two trees that differ in one file -/

/-- Under `k` the tree `t` stores a file, and `u` another one or nothing; elsewhere they store the
same. -/
structure Refiled (t u : FileTree) (k : Key) : Prop where
  file : ∃ seconds readable, t.get? k = some (.file seconds readable)
  leaf : ∀ e, u.get? k = some e → ∃ seconds readable, e = .file seconds readable
  elsewhere : ∀ j, j ≠ k → u.get? j = t.get? j

theorem Refiled.sameLinks (h : t.Refiled u k) : t.SameLinks u := by
  intro j target
  by_cases hj : j = k
  · subst hj
    obtain ⟨seconds, readable, hfile⟩ := h.file
    constructor
    · intro hlink
      obtain ⟨_, _, heq⟩ := h.leaf _ hlink
      exact absurd heq (by simp)
    · intro hlink
      rw [hfile] at hlink
      exact absurd hlink (by simp)
  · rw [h.elsewhere j hj]

theorem Refiled.resolve? (h : t.Refiled u k) (p : Path) : u.resolve? p = t.resolve? p :=
  resolve?_of_sameLinks h.sameLinks p

theorem Refiled.endsAt_iff (h : t.Refiled u k) {p : Path} {j : Key} :
    u.EndsAt p j ↔ t.EndsAt p j := by
  unfold EndsAt
  rw [h.resolve?]

/-- A path that leads anywhere else is answered alike. -/
theorem Refiled.alikeAt (h : t.Refiled u k) {p : Path} (hp : ¬ t.EndsAt p k) :
    t.view.AlikeAt u.view p := by
  refine alikeAt_of_locate_eq ?_
  unfold locate
  rw [h.resolve? p]
  cases hq : t.resolve? p with
  | none => rfl
  | some q =>
    have hne : q.key ≠ k := by
      rintro rfl
      exact hp (by unfold EndsAt; rw [hq]; rfl)
    dsimp only
    rw [h.elsewhere q.key hne]

theorem Refiled.not_endsAt_of_directory? (h : t.Refiled u k) {p name : Path}
    (hname : t.directory? p = some name) : ¬ t.EndsAt p k := by
  obtain ⟨hq, children, listable, hdir⟩ := directory?_eq_some_iff.mp hname
  obtain ⟨seconds, readable, hfile⟩ := h.file
  unfold EndsAt
  rw [hq]
  intro hkey
  rw [Option.some.inj hkey, hfile] at hdir
  exact absurd hdir (by simp)

/-- Both trees have the same directories. -/
theorem Refiled.directory? (h : t.Refiled u k) (p : Path) : u.directory? p = t.directory? p := by
  by_cases hp : t.EndsAt p k
  · have hnone : t.directory? p = none := by
      cases hname : t.directory? p with
      | none => rfl
      | some name => exact absurd hp (h.not_endsAt_of_directory? hname)
    rw [hnone]
    cases hname : u.directory? p with
    | none => rfl
    | some name =>
      obtain ⟨hq, children, listable, hdir⟩ := directory?_eq_some_iff.mp hname
      have hkey : name.key = k := by
        have hu := h.endsAt_iff.mpr hp
        unfold EndsAt at hu
        rw [hq] at hu
        exact Option.some.inj hu
      obtain ⟨_, _, heq⟩ := h.leaf _ (hkey ▸ hdir)
      exact absurd heq (by simp)
  · exact (h.alikeAt hp).directory

/-! ## Two scans in lockstep -/

/-- The finding at a path after the file under `k` became what `u` has there. -/
def retold (t u : FileTree) (k : Key) (f : Finding) : Finding :=
  if t.EndsAt f.path k then u.view.lookAtFile f.path else f

/-- **Two scans in lockstep.** They visit the same directories in the same order, and differ in
what they find at paths that lead to the file. -/
theorem findings_refiled (h : t.Refiled u k) (visited : List Key) (waiting : List Path) :
    u.view.findings visited waiting
      = (t.view.findings visited waiting).map (retold t u k) := by
  fun_induction t.view.findings visited waiting with
  | case1 => rw [View.findings, List.map_nil]
  | case2 visited p waiting hnone ih =>
    have hhead : retold t u k (t.view.lookAtFile p) = u.view.lookAtFile p := by
      unfold retold
      rw [View.path_lookAtFile]
      split
      next => rfl
      next hp => exact (h.alikeAt hp).lookAtFile.symm
    rw [View.findings_of_file ((h.directory? p).trans hnone), ih, List.map_cons, hhead]
  | case3 visited p waiting name hname hv ih =>
    have hhead : retold t u k (.revisited p) = .revisited p :=
      if_neg (h.not_endsAt_of_directory? hname)
    rw [View.findings_of_visited ((h.directory? p).trans hname) hv, ih, List.map_cons, hhead]
  | case4 visited p waiting name hname hv ih =>
    have hp := h.not_endsAt_of_directory? hname
    have hhead : retold t u k (t.view.enter p name) = t.view.enter p name := by
      unfold retold
      rw [View.path_enter, if_neg hp]
    -- what is entered is no file, so both trees list the same and the visited keys stay equal
    rw [View.findings_of_new ((h.directory? p).trans hname) hv, (h.alikeAt hp).enter, ih,
      List.map_cons, hhead]

/-- A finding at the file is a look at it. -/
theorem Refiled.eq_lookAtFile (h : t.Refiled u k) {visited : List Key} {waiting : List Path}
    {f : Finding} (hf : f ∈ t.view.findings visited waiting) (hk : t.EndsAt f.path k) :
    f = t.view.lookAtFile f.path := by
  rcases View.finding_cases hf with ⟨-, hlook⟩ | ⟨name, hname, -⟩
  · exact hlook
  · exact absurd hk (h.not_endsAt_of_directory? hname)

/-- **The report after a file has changed** is the report before it, with the entries at paths
that lead to the file told anew, in their places. -/
theorem entries_refiled (h : t.Refiled u k) (watched : List Path) :
    (u.view.report watched).entries = (t.view.report watched).entries.map (retold t u k) := by
  have hreported : ∀ f ∈ t.view.scan watched,
      (retold t u k f).isReported = f.isReported := by
    intro f hf
    unfold retold
    split
    next hk =>
      rw [isReported_lookAtFile, h.eq_lookAtFile hf hk, isReported_lookAtFile]
    next => rfl
  show (u.view.findings [] watched).filter Finding.isReported = _
  rw [findings_refiled h, List.filter_map]
  exact congrArg (List.map (retold t u k)) (List.filter_congr hreported)

theorem mem_scan_of_mem_entries {v : View} {watched : List Path} {f : Finding}
    (hf : f ∈ (v.report watched).entries) : f ∈ v.scan watched :=
  (List.mem_filter.mp hf).1

/-- The report again, once it is known what a look at the changed file gives. -/
theorem entries_retold (h : t.Refiled u k) (watched : List Path) {g : Finding → Finding}
    (hg : ∀ f ∈ (t.view.report watched).entries, t.EndsAt f.path k →
      u.view.lookAtFile f.path = g f) :
    (u.view.report watched).entries
      = (t.view.report watched).entries.map fun f => if t.EndsAt f.path k then g f else f := by
  rw [entries_refiled h]
  refine List.map_congr_left fun f hf => ?_
  unfold retold
  split
  next hk => exact hg f hf hk
  next => rfl

/-! ## The three ways to change a file -/

section Ways

variable {p : Path} {seconds : Nat} {readable : Bool}

theorem refiled_set (hfile : t.get? k = some (.file seconds readable)) (n : Nat) (r : Bool) :
    t.Refiled (t.set k (.file n r)) k where
  file := ⟨seconds, readable, hfile⟩
  leaf e he := by
    rw [get?_set, if_pos rfl] at he
    exact ⟨n, r, (Option.some.inj he).symm⟩
  elsewhere j hj := by rw [get?_set, if_neg hj]

theorem refiled_erase (hfile : t.get? k = some (.file seconds readable)) :
    t.Refiled (t.erase k) k where
  file := ⟨seconds, readable, hfile⟩
  leaf e he := by
    rw [get?_erase, if_pos rfl] at he
    exact absurd he (by simp)
  elsewhere j hj := by rw [get?_erase, if_neg hj]

theorem setModified_of_file (hfile : t.get? p.key = some (.file seconds readable)) {n : Nat}
    (hn : n ≤ maxSeconds) : t.setModified p n = .ok (t.set p.key (.file n readable)) := by
  unfold setModified
  rw [hfile]
  exact if_neg (Nat.not_lt.mpr hn)

theorem deny_of_file (hfile : t.get? p.key = some (.file seconds readable)) :
    t.deny p = t.set p.key (.file seconds false) := by
  unfold deny
  rw [hfile]

/-- With another time, a file that may be read is seen with that time, and one that may not be read
is seen no more than before. -/
theorem entries_setModified (hfile : t.get? k = some (.file seconds readable)) (n : Nat)
    (watched : List Path) :
    ((t.set k (.file n readable)).view.report watched).entries
      = (t.view.report watched).entries.map fun f =>
          if t.EndsAt f.path k then
            if readable then .observed f.path ⟨n * Timestamp.perSecond⟩ else f
          else f := by
  have h := refiled_set hfile n readable
  have hget : (t.set k (.file n readable)).get? k = some (.file n readable) := by
    rw [get?_set, if_pos rfl]
  refine entries_retold h watched fun f hf hk => ?_
  cases readable with
  | true => exact (h.endsAt_iff.mpr hk).lookAtFile_of_readable hget
  | false =>
    -- denied before and after, it is skipped for the same reason
    have hsame := h.eq_lookAtFile (mem_scan_of_mem_entries hf) hk
    rw [hk.lookAtFile_of_denied hfile] at hsame
    rw [(h.endsAt_iff.mpr hk).lookAtFile_of_denied hget]
    exact hsame.symm

theorem entries_deny (hfile : t.get? k = some (.file seconds readable)) (watched : List Path) :
    ((t.set k (.file seconds false)).view.report watched).entries
      = (t.view.report watched).entries.map fun f =>
          if t.EndsAt f.path k then .skipped f.path (.fault (.permissionDenied f.path))
          else f := by
  have h := refiled_set hfile seconds false
  refine entries_retold h watched fun f _ hk => ?_
  exact (h.endsAt_iff.mpr hk).lookAtFile_of_denied (by rw [get?_set, if_pos rfl])

theorem entries_vanish (hfile : t.get? k = some (.file seconds readable)) (watched : List Path) :
    ((t.erase k).view.report watched).entries
      = (t.view.report watched).entries.map fun f =>
          if t.EndsAt f.path k then .skipped f.path (.fault (.notFound f.path)) else f := by
  have h := refiled_erase hfile
  refine entries_retold h watched fun f _ hk => ?_
  exact (h.endsAt_iff.mpr hk).lookAtFile_of_missing (by rw [get?_erase, if_pos rfl])

/-- A readable file that is seen and gets a time newer than all others is the newest. -/
theorem latest_setModified (hfile : t.get? k = some (.file seconds true)) {n : Nat}
    {watched : List Path} (hnew : (t.view.latest watched).nanos < n * Timestamp.perSecond)
    (hseen : ∃ f ∈ (t.view.report watched).entries, t.EndsAt f.path k) :
    (t.set k (.file n true)).view.latest watched = ⟨n * Timestamp.perSecond⟩ := by
  obtain ⟨f, hf, hk⟩ := hseen
  unfold View.latest Report.latest
  refine Timestamp.newest_eq_of_mem ?_ fun v hv => ?_
  · refine Report.mem_times_iff.mpr ⟨f.path, ?_⟩
    rw [entries_setModified hfile]
    exact List.mem_map.mpr ⟨f, hf, by rw [if_pos hk]; rfl⟩
  · obtain ⟨q, hq⟩ := Report.mem_times_iff.mp hv
    rw [entries_setModified hfile] at hq
    obtain ⟨g, hg, hgq⟩ := List.mem_map.mp hq
    split at hgq
    next =>
      obtain ⟨-, rfl⟩ := Finding.observed.inj hgq
      exact Nat.le_refl _
    next =>
      -- the other times were seen before, so they are older
      have hmem : v ∈ (t.view.report watched).entries.filterMap Finding.modified? :=
        Report.mem_times_iff.mpr ⟨q, hgq ▸ hg⟩
      exact Nat.le_of_lt (Nat.lt_of_le_of_lt (Timestamp.le_newest hmem) hnew)

end Ways

end PollWatch.FileTree
