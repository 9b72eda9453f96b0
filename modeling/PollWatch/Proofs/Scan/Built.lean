import PollWatch.Proofs.Scan.Descent
import PollWatch.Proofs.Scan.Frame

/-!
# Trees that were only added to

A tree is built by adding files and directories, none of them below a file. Whatever the
order and the depth, two facts about such a tree tie what was added to what a scan sees:

> `get?_changedBy_eq_file_iff`: the files that are stored are those that were written,
> each with the seconds that were written last;
> `Buildable.listsDownTo`: each of them can be found from all directories above it.

So a scan gives the newest of the files at or below the watched paths, and apart from
what is written last to each file, the order of the additions does not matter
(`latest_isGreatest_writtenTimes`).
-/

namespace PollWatch

/-- A report whose times are those of a set gives the greatest time of that set. -/
theorem Report.latest_isGreatest {r : Report} {times : Set Instant}
    (h : ∀ i, i ∈ times ↔ ∃ p u, .observed p u ∈ r.entries ∧ i = u.nanos) :
    (times.Nonempty → IsGreatest times r.latest.nanos) ∧ (times = ∅ → r.latest = .zero) := by
  have hmem : ∀ u, u ∈ r.entries.filterMap Finding.modified? → (u.nanos : Instant) ∈ times := by
    intro u hu
    obtain ⟨p, hp⟩ := Report.mem_times_iff.mp hu
    exact (h _).mpr ⟨p, u, hp, rfl⟩
  constructor
  · rintro ⟨i, hi⟩
    obtain ⟨p, u, hp, -⟩ := (h i).mp hi
    refine ⟨hmem _ (Timestamp.newest_mem ?_), fun j hj => ?_⟩
    · exact List.ne_nil_of_mem (Report.mem_times_iff.mpr ⟨p, hp⟩)
    · obtain ⟨q, v, hq, rfl⟩ := (h j).mp hj
      exact Int.ofNat_le.mpr (Timestamp.le_newest (Report.mem_times_iff.mpr ⟨q, hq⟩))
  · intro hempty
    refine Report.latest_eq_zero_iff.mpr fun p u hp => ?_
    have hin := hmem u (Report.mem_times_iff.mpr ⟨p, hp⟩)
    rw [hempty] at hin
    exact absurd hin (Set.notMem_empty _)

namespace FileTree

/-- A file is added, of a time that can be held, or a directory. -/
def Change.IsAddition : Change → Prop
  | .addFile _ seconds => seconds ≤ maxSeconds
  | .addDirectory _ => True
  | _ => False

/-- Additions at textual places, none of them below a file. -/
structure Buildable (cs : List Change) : Prop where
  additions : ∀ c ∈ cs, c.IsAddition
  textual : ∀ c ∈ cs, c.path.key.Textual
  files : ∀ p seconds, .addFile p seconds ∈ cs → ∀ c ∈ cs, ¬ p.key.IsAncestor c.path.key

/-- The seconds that a change writes to the file at `k`. -/
def Change.written? (k : Key) : Change → Option Nat
  | .addFile p seconds => if p.key = k then some seconds else none
  | _ => none

@[simp] theorem Change.written?_addFile (k : Key) (p : Path) (seconds : Nat) :
    (Change.addFile p seconds).written? k = if p.key = k then some seconds else none := rfl

@[simp] theorem Change.written?_addDirectory (k : Key) (p : Path) :
    (Change.addDirectory p).written? k = none := rfl

/-- The seconds that are written last to the file at `k`. -/
def lastWritten? (cs : List Change) (k : Key) : Option Nat :=
  (cs.filterMap (Change.written? k)).getLast?

/-- The times of the files at or below watched paths, as they were written last. -/
def writtenTimes (cs : List Change) (watched : List Path) : Set Instant :=
  {i | ∃ k seconds, lastWritten? cs k = some seconds ∧ (∃ w ∈ watched, w.key <+: k) ∧
    i = (seconds * Timestamp.perSecond : Nat)}

theorem lastWritten?_concat (cs : List Change) (c : Change) (k : Key) :
    lastWritten? (cs ++ [c]) k = (c.written? k).or (lastWritten? cs k) := by
  unfold lastWritten?
  rw [List.filterMap_append, List.getLast?_append]
  cases hc : c.written? k with
  | none => rw [List.filterMap_cons_none hc]; rfl
  | some seconds => rw [List.filterMap_cons_some hc]; rfl

theorem exists_addFile_of_lastWritten? {cs : List Change} {k : Key} {seconds : Nat}
    (h : lastWritten? cs k = some seconds) : ∃ p, p.key = k ∧ .addFile p seconds ∈ cs := by
  obtain ⟨c, hc, hwritten⟩ := List.mem_filterMap.mp (List.mem_of_getLast? h)
  cases c with
  | addFile p n =>
    rw [Change.written?_addFile] at hwritten
    split at hwritten
    next hp =>
      obtain rfl := Option.some.inj hwritten
      exact ⟨p, hp, hc⟩
    next => exact absurd hwritten (by simp)
  | _ => exact absurd hwritten (by simp [Change.written?])

/-! ## What additions make -/

theorem Change.IsAddition.fits {c : Change} (h : c.IsAddition) : c.Fits := by
  cases c with
  | addFile => exact h
  | setModified => exact absurd h id
  | _ => trivial

theorem Change.IsAddition.addsNoLink {c : Change} (h : c.IsAddition) : c.AddsNoLink := by
  cases c with
  | addLink => exact absurd h id
  | _ => trivial

theorem Change.IsAddition.spares {c : Change} (h : c.IsAddition) (t : FileTree) : t.Spares c := by
  cases c with
  | vanish => exact absurd h id
  | remove => exact absurd h id
  | _ => trivial

theorem Change.IsAddition.not_rewrites {c : Change} (h : c.IsAddition) : ¬ c.Rewrites := by
  cases c with
  | setModified => exact absurd h id
  | deny => exact absurd h id
  | _ => exact id

theorem Change.Fits.apply_eq_changed {c : Change} (h : c.Fits) (t : FileTree) :
    t.apply c = .ok (t.changed c) := by
  obtain ⟨u, hu⟩ := h.apply t
  unfold changed
  rw [hu]

theorem changedBy_concat (t : FileTree) (cs : List Change) (c : Change) :
    t.changedBy (cs ++ [c]) = (t.changedBy cs).changed c :=
  List.foldl_concat ..

theorem reachableBy_changedBy {cs : List Change} (h : ∀ c ∈ cs, c.IsAddition) :
    (new.changedBy cs).ReachableBy fun _ c => c.IsAddition := by
  induction cs using List.reverseRecOn with
  | nil => exact .new
  | append_singleton cs c ih =>
    have hc : c.IsAddition := h c (List.mem_append_right _ (List.mem_singleton_self c))
    rw [changedBy_concat]
    exact .change (ih fun d hd => h d (List.mem_append_left _ hd)) hc
      (hc.fits.apply_eq_changed _)

/-- Every directory may be listed. -/
def Open (t : FileTree) : Prop :=
  ∀ k children listable, t.get? k = some (.directory children listable) → listable = true

theorem open_new : Open .new := by
  intro k children listable hget
  exact (Entry.directory.inj (get?_new_eq_some_iff.mp hget).2).2

theorem Open.insert {t : FileTree} (h : t.Open) (p : Path) {e : Entry}
    (he : ∀ children listable, e = .directory children listable → listable = true) :
    (t.insert p e).Open := by
  intro k children listable hget
  have hgrowth := t.growth_get?_insert p e k
  rw [hget] at hgrowth
  generalize hold : (if k = p.key then some e else t.get? k) = old at hgrowth
  have hopen : ∀ children' listable', old = some (.directory children' listable') →
      listable' = true := by
    rintro children' listable' rfl
    split at hold
    next => exact he _ _ (Option.some.inj hold)
    next => exact h k _ _ hold
  cases hgrowth with
  | same => exact hopen _ _ rfl
  | made => rfl
  | more old _ => exact hopen _ _ rfl

theorem ReachableBy.open {t : FileTree} (h : t.ReachableBy fun _ c => c.IsAddition) : t.Open := by
  induction h with
  | new => exact open_new
  | change _ hc hu ih =>
    cases applied_of_apply hu with
    | kept => exact ih
    | rewritten hrewrites => exact absurd hrewrites hc.not_rewrites
    | addFile p seconds => exact ih.insert p (by simp)
    | @addDirectory p => exact ih.insert p fun _ _ he => (Entry.directory.inj he).2.symm
    | addLink => exact absurd hc id
    | vanish => exact absurd hc id
    | unlisted => exact absurd hc id
    | remove => exact absurd hc id

/-- The files that are stored are those that were written, with the seconds written last. The
induction is on the additions, from the last one back. -/
theorem get?_changedBy_eq_file_iff {cs : List Change} (h : ∀ c ∈ cs, c.IsAddition) {k : Key}
    {seconds : Nat} {readable : Bool} :
    (new.changedBy cs).get? k = some (.file seconds readable) ↔
      readable = true ∧ lastWritten? cs k = some seconds := by
  induction cs using List.reverseRecOn with
  | nil =>
    rw [changedBy, List.foldl_nil, get?_new_eq_some_iff]
    simp [lastWritten?]
  | append_singleton cs c ih =>
    have hc : c.IsAddition := h c (List.mem_append_right _ (List.mem_singleton_self c))
    have ih := ih fun d hd => h d (List.mem_append_left _ hd)
    have happly := hc.fits.apply_eq_changed (new.changedBy cs)
    rw [changedBy_concat, lastWritten?_concat]
    cases c with
    | addFile p n =>
      obtain ⟨-, hu⟩ := addFile_eq_ok_iff.mp happly
      rw [hu, get?_insert_eq_some_iff _ _ _ _ (by simp), Change.written?_addFile]
      by_cases hk : k = p.key
      · rw [if_pos hk, if_pos hk.symm]
        simp [eq_comm, and_comm]
      · rw [if_neg hk, if_neg (Ne.symm hk), Option.none_or]
        exact ih
    | addDirectory p =>
      rw [← Except.ok.inj happly, Change.written?_addDirectory, Option.none_or, ← ih]
      unfold addDirectory
      split
      next => exact Iff.rfl
      next hnone =>
        rw [get?_insert_eq_some_iff _ _ _ _ (by simp)]
        split
        next hk => rw [hk, Option.not_isSome_iff_eq_none.mp hnone]; simp
        next => exact Iff.rfl
    | _ => exact absurd hc id

/-! ## What is seen of them -/

variable {cs : List Change} {watched : List Path}

/-- Every file that was written can be found from all directories above it. -/
theorem Buildable.listsDownTo (h : Buildable cs) {k : Key} {seconds : Nat}
    (hk : lastWritten? cs k = some seconds) : (new.changedBy cs).ListsDownTo k := by
  have hreachable := reachableBy_changedBy h.additions
  have hunlinked : (new.changedBy cs).Unlinked := hreachable.unlinked fun _ _ hc => hc.addsNoLink
  have hholds : (new.changedBy cs).HoldsTextual := hreachable.holdsTextual fun t _ hc => hc.spares t
  obtain ⟨p, rfl, hp⟩ := exists_addFile_of_lastWritten? hk
  have hget := (get?_changedBy_eq_file_iff h.additions).mpr ⟨rfl, hk⟩
  refine hholds.listsDownTo (h.textual _ hp) (by rw [hget]; rfl) ?_
  -- a file above would have been written, and this one was added below it
  refine hunlinked.onlyDirectoriesAbove fun j hj n readable hfile => ?_
  obtain ⟨-, hwritten⟩ := (get?_changedBy_eq_file_iff h.additions).mp hfile
  obtain ⟨q, rfl, hq⟩ := exists_addFile_of_lastWritten? hwritten
  exact h.files q n hq _ hp hj

/-- A report shows the files at or below watched paths, with the times written last. -/
theorem Buildable.mem_writtenTimes_iff (h : Buildable cs) (hw : ∀ w ∈ watched, w.key ≠ [])
    (i : Instant) :
    i ∈ writtenTimes cs watched ↔
      ∃ p u, .observed p u ∈ ((new.changedBy cs).view.report watched).entries ∧ i = u.nanos := by
  have hreachable := reachableBy_changedBy h.additions
  have hunlinked : (new.changedBy cs).Unlinked := hreachable.unlinked fun _ _ hc => hc.addsNoLink
  constructor
  · rintro ⟨k, seconds, hk, ⟨w, hmem, hbelow⟩, rfl⟩
    obtain ⟨p, rfl, hp⟩ := exists_addFile_of_lastWritten? hk
    have hlead := leadsDown_of_listsDownTo (hw w hmem) (h.listsDownTo hk)
      fun i _ _ => hreachable.open i
    have hget := (get?_changedBy_eq_file_iff h.additions).mpr ⟨rfl, hk⟩
    obtain ⟨q, -, hq⟩ := hunlinked.exists_observed hreachable.reachable hmem
      (h.textual _ hp) hbelow hlead hget
    exact ⟨q, _, hq, rfl⟩
  · rintro ⟨p, u, hp, rfl⟩
    have hf : Finding.observed p u ∈ (new.changedBy cs).view.scan watched :=
      (List.mem_filter.mp hp).1
    obtain ⟨hnone, hmod⟩ := (View.modified?_of_mem_scan hf).mp rfl
    obtain ⟨seconds, hget, hi⟩ :=
      (hunlinked.modified_eq_ok_iff (isDirectory_eq_false_iff.mpr hnone)).mp hmod
    obtain ⟨-, hwritten⟩ := (get?_changedBy_eq_file_iff h.additions).mp hget
    exact ⟨p.key, seconds, hwritten, exists_prefix_of_reaches (View.reaches_of_mem_scan hf), hi⟩

theorem Buildable.perm {ds : List Change} (h : Buildable cs) (hperm : ds.Perm cs) :
    Buildable ds where
  additions c hc := h.additions c (hperm.mem_iff.mp hc)
  textual c hc := h.textual c (hperm.mem_iff.mp hc)
  files p seconds hp c hc :=
    h.files p seconds (hperm.mem_iff.mp hp) c (hperm.mem_iff.mp hc)

/-- **A tree that was only added to is scanned for what was written last.** The scan gives the
greatest time of the files at or below watched paths, and zero if there is none. In another
order, the additions lead to the same, if the same is written last to each file. -/
theorem latest_isGreatest_writtenTimes (h : Buildable cs) (hw : ∀ w ∈ watched, w.key ≠ []) :
    ((writtenTimes cs watched).Nonempty →
        IsGreatest (writtenTimes cs watched) ((new.changedBy cs).view.latest watched).nanos) ∧
      (writtenTimes cs watched = ∅ → (new.changedBy cs).view.latest watched = .zero) ∧
      ∀ ds, ds.Perm cs → (∀ k, lastWritten? ds k = lastWritten? cs k) →
        (new.changedBy ds).view.latest watched = (new.changedBy cs).view.latest watched := by
  obtain ⟨hgreatest, hempty⟩ := Report.latest_isGreatest (h.mem_writtenTimes_iff hw)
  refine ⟨hgreatest, hempty, fun ds hperm hlast => ?_⟩
  have htimes : writtenTimes ds watched = writtenTimes cs watched := by
    unfold writtenTimes
    simp only [hlast]
  obtain ⟨hgreatest', hempty'⟩ :=
    Report.latest_isGreatest ((h.perm hperm).mem_writtenTimes_iff hw)
  rw [htimes] at hgreatest' hempty'
  rcases (writtenTimes cs watched).eq_empty_or_nonempty with hnone | hsome
  · exact (hempty' hnone).trans (hempty hnone).symm
  · exact Timestamp.ext_nanos (Int.ofNat.inj ((hgreatest' hsome).unique (hgreatest hsome)))

/-- Two files, one of which is written twice, and an empty directory that was there already. -/
def someAdditions : List Change :=
  [.addFile (.ofBytes [97, 47, 98]) 9, .addFile (.ofBytes [97, 47, 99, 47, 100]) 3,
    .addDirectory (.ofBytes [97]), .addFile (.ofBytes [97, 47, 98]) 2]

theorem buildable_someAdditions : Buildable someAdditions where
  additions := by simp [someAdditions, Change.IsAddition, maxSeconds]
  textual := by decide
  files p seconds hp := by
    have hkey : p.key ∈ [(Path.ofBytes [97, 47, 98]).key,
        (Path.ofBytes [97, 47, 99, 47, 100]).key] := by
      simp only [someAdditions, List.mem_cons, List.not_mem_nil, Change.addFile.injEq,
        reduceCtorEq, or_false, false_or] at hp
      rcases hp with ⟨rfl, -⟩ | ⟨rfl, -⟩ | ⟨rfl, -⟩ <;> decide
    generalize p.key = k at hkey
    revert k
    decide

/-- The later of the two times that `a/b` was given does not count. -/
theorem latest_isGreatest_someAdditions :
    Buildable someAdditions ∧
      IsGreatest (writtenTimes someAdditions [.ofBytes [97], .ofBytes [98]]) 3000000000 := by
  have hw : ∀ w ∈ [Path.ofBytes [97], Path.ofBytes [98]], w.key ≠ [] := by decide
  have hlatest : (((new.changedBy someAdditions).view.latest
      [.ofBytes [97], .ofBytes [98]]).nanos : Instant) = 3000000000 := by cbv
  refine ⟨buildable_someAdditions, ?_⟩
  rw [← hlatest]
  refine (latest_isGreatest_writtenTimes buildable_someAdditions hw).1 ⟨3000000000, ?_⟩
  exact ⟨(Path.ofBytes [97, 47, 99, 47, 100]).key, 3, by decide, ⟨.ofBytes [97], by decide⟩, rfl⟩

end FileTree

end PollWatch
