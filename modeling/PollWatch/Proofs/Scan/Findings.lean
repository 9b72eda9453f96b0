import PollWatch.Proofs.Timestamp.Newest
import PollWatch.Scan

/-!
# What a scan looks at

The findings of a scan are described here from outside, over any file system:

> `finding_cases`: a finding is what its path calls for: a look at a file, a
> directory entered, or a directory met again;
> `exists_finding_of_mem`, `exists_finding_of_child`: every watched path is looked
> at, and so is every entry of a directory that was entered;
> `exists_entered`: a directory that is met was entered, under some path, in the
> same scan;
> `reaches_of_mem_scan`: nothing else is looked at.

The first four hold from any moment of a scan, so each is one induction along
`findings`, whose cases are the three things that can be found.
-/

namespace PollWatch

theorem Finding.modified?_eq_some_iff {f : Finding} {u : Timestamp} :
    f.modified? = some u ↔ f = .observed f.path u := by
  cases f with
  | observed p v => simp [Finding.modified?, Finding.path]
  | _ => simp [Finding.modified?]

namespace View

/-- Paths that are watched, or listed by a directory that is reached. There is no memory of
directories seen: round a cycle of links there is no end of such paths. -/
inductive Reaches (v : View) (watched : List Path) : Path → Prop
  | watched {p : Path} : p ∈ watched → Reaches v watched p
  | entry {p c : Path} {entries : List Path} :
      Reaches v watched p → (v.directory? p).isSome → v.list p = .ok entries → c ∈ entries →
        Reaches v watched c

variable {v : View}

theorem path_lookAtFile (p : Path) : (v.lookAtFile p).path = p := by
  unfold lookAtFile
  split
  next => split <;> rfl
  next => rfl

theorem path_enter (p name : Path) : (v.enter p name).path = p := by
  unfold enter
  split <;> rfl

theorem children_lookAtFile (p : Path) : (v.lookAtFile p).children = [] := by
  unfold lookAtFile
  split
  next => split <;> rfl
  next => rfl

/-- A path is seen as a file of time `t` exactly if its modification time is `t`. -/
theorem lookAtFile_modified?_eq_some_iff {p : Path} {t : Timestamp} :
    (v.lookAtFile p).modified? = some t ↔ v.modified p = .ok t.nanos := by
  unfold lookAtFile
  split
  next i hi =>
    rw [hi, Except.ok.injEq, ← Timestamp.ofInstant?_eq_some_iff]
    split
    next u hu => rw [hu]; rfl
    next hnone => rw [hnone]; simp [Finding.modified?]
  next f hf =>
    rw [hf]
    simp [Finding.modified?]

theorem enter_modified? (p name : Path) : (v.enter p name).modified? = none := by
  unfold enter
  split <;> rfl

/-! ## All that is found -/

/-- A finding is what its path calls for. -/
theorem finding_cases {visited : List Key} {waiting : List Path} {f : Finding}
    (hf : f ∈ v.findings visited waiting) :
    (v.directory? f.path = none ∧ f = v.lookAtFile f.path) ∨
      ∃ name, v.directory? f.path = some name ∧
        (f = .revisited f.path ∨ f = v.enter f.path name) := by
  fun_induction v.findings visited waiting with
  | case1 => exact absurd hf (by simp)
  | case2 visited p waiting hnone ih =>
    rcases List.mem_cons.mp hf with rfl | hf
    · rw [path_lookAtFile]
      exact Or.inl ⟨hnone, rfl⟩
    · exact ih hf
  | case3 visited p waiting name hname _ ih =>
    rcases List.mem_cons.mp hf with rfl | hf
    · exact Or.inr ⟨name, hname, Or.inl rfl⟩
    · exact ih hf
  | case4 visited p waiting name hname _ ih =>
    rcases List.mem_cons.mp hf with rfl | hf
    · rw [path_enter]
      exact Or.inr ⟨name, hname, Or.inr rfl⟩
    · exact ih hf

/-- Every waiting path is looked at. -/
theorem exists_finding_of_mem {visited : List Key} {waiting : List Path} {p : Path}
    (hp : p ∈ waiting) : ∃ f ∈ v.findings visited waiting, f.path = p := by
  fun_induction v.findings visited waiting with
  | case1 => exact absurd hp (by simp)
  | case2 visited q waiting _ ih =>
    rcases List.mem_cons.mp hp with rfl | hp
    · exact ⟨_, List.mem_cons_self .., path_lookAtFile p⟩
    · obtain ⟨f, hf, hpath⟩ := ih hp
      exact ⟨f, List.mem_cons_of_mem _ hf, hpath⟩
  | case3 visited q waiting name _ _ ih =>
    rcases List.mem_cons.mp hp with rfl | hp
    · exact ⟨_, List.mem_cons_self .., rfl⟩
    · obtain ⟨f, hf, hpath⟩ := ih hp
      exact ⟨f, List.mem_cons_of_mem _ hf, hpath⟩
  | case4 visited q waiting name _ _ ih =>
    rcases List.mem_cons.mp hp with rfl | hp
    · exact ⟨_, List.mem_cons_self .., path_enter p name⟩
    · obtain ⟨f, hf, hpath⟩ := ih (List.mem_append_right _ hp)
      exact ⟨f, List.mem_cons_of_mem _ hf, hpath⟩

/-- The entries of a directory that was entered are looked at. -/
theorem exists_finding_of_child {visited : List Key} {waiting : List Path} {f : Finding}
    {c : Path} (hf : f ∈ v.findings visited waiting) (hc : c ∈ f.children) :
    ∃ g ∈ v.findings visited waiting, g.path = c := by
  fun_induction v.findings visited waiting with
  | case1 => exact absurd hf (by simp)
  | case2 visited p waiting _ ih =>
    rcases List.mem_cons.mp hf with rfl | hf
    · rw [children_lookAtFile] at hc
      exact absurd hc (by simp)
    · obtain ⟨g, hg, hpath⟩ := ih hf
      exact ⟨g, List.mem_cons_of_mem _ hg, hpath⟩
  | case3 visited p waiting name _ _ ih =>
    rcases List.mem_cons.mp hf with rfl | hf
    · exact absurd hc (by simp [Finding.children])
    · obtain ⟨g, hg, hpath⟩ := ih hf
      exact ⟨g, List.mem_cons_of_mem _ hg, hpath⟩
  | case4 visited p waiting name _ _ ih =>
    rcases List.mem_cons.mp hf with rfl | hf
    · -- the entries were put in front of the waiting paths
      obtain ⟨g, hg, hpath⟩ := exists_finding_of_mem (List.mem_append_left waiting hc)
      exact ⟨g, List.mem_cons_of_mem _ hg, hpath⟩
    · obtain ⟨g, hg, hpath⟩ := ih hf
      exact ⟨g, List.mem_cons_of_mem _ hg, hpath⟩

/-- A directory that is met was entered before the scan came here, or is entered in it, under
this path or another one. -/
theorem exists_entered {visited : List Key} {waiting : List Path} {f : Finding} {name : Path}
    (hf : f ∈ v.findings visited waiting) (hname : v.directory? f.path = some name) :
    name.key ∈ visited ∨ ∃ p name', v.directory? p = some name' ∧ name'.key = name.key ∧
      v.enter p name' ∈ v.findings visited waiting := by
  fun_induction v.findings visited waiting with
  | case1 => exact absurd hf (by simp)
  | case2 visited p waiting hnone ih =>
    rcases List.mem_cons.mp hf with rfl | hf
    · rw [path_lookAtFile, hnone] at hname
      exact absurd hname (by simp)
    · rcases ih hf with hv | ⟨q, name', hq, hkey, hmem⟩
      · exact Or.inl hv
      · exact Or.inr ⟨q, name', hq, hkey, List.mem_cons_of_mem _ hmem⟩
  | case3 visited p waiting name' hname' hv ih =>
    rcases List.mem_cons.mp hf with rfl | hf
    · obtain rfl := Option.some.inj (hname'.symm.trans hname)
      exact Or.inl hv
    · rcases ih hf with hv | ⟨q, name', hq, hkey, hmem⟩
      · exact Or.inl hv
      · exact Or.inr ⟨q, name', hq, hkey, List.mem_cons_of_mem _ hmem⟩
  | case4 visited p waiting name' hname' _ ih =>
    have hself : v.enter p name' ∈ v.enter p name' ::
        v.findings (name'.key :: visited) ((v.enter p name').children ++ waiting) :=
      List.mem_cons_self ..
    rcases List.mem_cons.mp hf with rfl | hf
    · -- entered here
      rw [path_enter] at hname
      obtain rfl := Option.some.inj (hname'.symm.trans hname)
      exact Or.inr ⟨p, name', hname', rfl, hself⟩
    · rcases ih hf with hv | ⟨q, name'', hq, hkey, hmem⟩
      · -- known to the rest of the scan: from before, or from entering it here
        rcases List.mem_cons.mp hv with hv | hv
        · exact Or.inr ⟨p, name', hname', hv.symm, hself⟩
        · exact Or.inl hv
      · exact Or.inr ⟨q, name'', hq, hkey, List.mem_cons_of_mem _ hmem⟩

/-- The entries of a directory that is entered are reached, if it is. -/
theorem reaches_of_mem_enter {watched : List Path} {p name c : Path}
    (hp : v.Reaches watched p) (hname : v.directory? p = some name)
    (hc : c ∈ (v.enter p name).children) : v.Reaches watched c := by
  unfold enter at hc
  split at hc
  next entries hlist => exact .entry hp (by rw [hname]; rfl) hlist hc
  next => exact absurd hc (by simp [Finding.children])

/-- Only paths that are reached are looked at, if the waiting ones are. -/
theorem reaches_of_mem {watched : List Path} {visited : List Key} {waiting : List Path}
    (hwaiting : ∀ p ∈ waiting, v.Reaches watched p) {f : Finding}
    (hf : f ∈ v.findings visited waiting) : v.Reaches watched f.path := by
  fun_induction v.findings visited waiting with
  | case1 => exact absurd hf (by simp)
  | case2 visited p waiting _ ih =>
    rcases List.mem_cons.mp hf with rfl | hf
    · rw [path_lookAtFile]
      exact hwaiting p (List.mem_cons_self ..)
    · exact ih (fun q hq => hwaiting q (List.mem_cons_of_mem _ hq)) hf
  | case3 visited p waiting _ _ _ ih =>
    rcases List.mem_cons.mp hf with rfl | hf
    · exact hwaiting p (List.mem_cons_self ..)
    · exact ih (fun q hq => hwaiting q (List.mem_cons_of_mem _ hq)) hf
  | case4 visited p waiting name hname _ ih =>
    have hp := hwaiting p (List.mem_cons_self ..)
    rcases List.mem_cons.mp hf with rfl | hf
    · rw [path_enter]
      exact hp
    · refine ih (fun c hc => ?_) hf
      rcases List.mem_append.mp hc with hc | hc
      · exact reaches_of_mem_enter hp hname hc
      · exact hwaiting c (List.mem_cons_of_mem _ hc)

theorem reaches_of_mem_scan {watched : List Path} {f : Finding} (hf : f ∈ v.scan watched) :
    v.Reaches watched f.path :=
  reaches_of_mem (fun _ hp => .watched hp) hf

/-- A directory that is met in a scan was entered in it. -/
theorem exists_entered_of_mem_scan {watched : List Path} {f : Finding} {name : Path}
    (hf : f ∈ v.scan watched) (hname : v.directory? f.path = some name) :
    ∃ p name', v.directory? p = some name' ∧ name'.key = name.key ∧
      v.enter p name' ∈ v.scan watched := by
  rcases exists_entered hf hname with hv | h
  · exact absurd hv (by simp)
  · exact h

/-- The times that a scan sees are those of the files among the paths it looks at. -/
theorem modified?_of_mem {visited : List Key} {waiting : List Path} {f : Finding} {t : Timestamp}
    (hf : f ∈ v.findings visited waiting) :
    f.modified? = some t ↔ v.directory? f.path = none ∧ v.modified f.path = .ok t.nanos := by
  rcases finding_cases hf with ⟨hnone, hlook⟩ | ⟨name, hname, hfound⟩
  · rw [hlook, lookAtFile_modified?_eq_some_iff, path_lookAtFile]
    exact ⟨fun h => ⟨hnone, h⟩, And.right⟩
  · constructor
    · intro h
      rcases hfound with hfound | hfound
      · rw [hfound] at h
        exact absurd h (by simp [Finding.modified?])
      · rw [hfound, enter_modified?] at h
        exact absurd h (by simp)
    · rintro ⟨hnone, -⟩
      rw [hname] at hnone
      exact absurd hnone (by simp)

theorem modified?_of_mem_scan {watched : List Path} {f : Finding} {t : Timestamp}
    (hf : f ∈ v.scan watched) :
    f.modified? = some t ↔ v.directory? f.path = none ∧ v.modified f.path = .ok t.nanos :=
  modified?_of_mem hf

end View

/-! ## What a report shows -/

namespace Report

/-- The times in a report are those of the files that it shows. -/
theorem mem_times_iff {r : Report} {u : Timestamp} :
    u ∈ r.entries.filterMap Finding.modified? ↔ ∃ p, .observed p u ∈ r.entries := by
  rw [List.mem_filterMap]
  constructor
  · rintro ⟨f, hf, hu⟩
    exact ⟨f.path, Finding.modified?_eq_some_iff.mp hu ▸ hf⟩
  · rintro ⟨p, hp⟩
    exact ⟨_, hp, rfl⟩

/-- The newest time is zero exactly if no file is shown that was modified after the epoch. -/
theorem latest_eq_zero_iff {r : Report} :
    r.latest = .zero ↔ ∀ p u, .observed p u ∈ r.entries → u = .zero := by
  unfold latest
  rw [Timestamp.newest_eq_zero_iff]
  constructor
  · intro hall p u hp
    exact hall u (mem_times_iff.mpr ⟨p, hp⟩)
  · intro hall u hu
    obtain ⟨p, hp⟩ := mem_times_iff.mp hu
    exact hall p u hp

end Report

end PollWatch
