import PollWatch.Proofs.Scan.Findings

/-!
# What a scan has visited

A scan carries the names of the directories that it has met, and nothing else from
one path to the next. So the second half of a scan is a scan of its own, that
knows a few names already:

> `findings_append`: two lists of paths are scanned one after the other, the second
> with what the first has met.

From this follows what stands at each place of a scan (`finds_of_append`: one finding
for each path, decided by what was met before it), and how much there is
(`nodup_enteredKeys`, `paths_perm`: no directory is entered twice, and the paths looked
at are those given and those listed).
-/

namespace PollWatch.View

variable {v : View}

/-- The names of the directories among the paths of some findings. -/
def met (v : View) (fs : List Finding) : List Key :=
  fs.filterMap fun f => (v.directory? f.path).map Path.key

theorem mem_met_iff {fs : List Finding} {k : Key} :
    k ∈ v.met fs ↔ ∃ f ∈ fs, ∃ name, v.directory? f.path = some name ∧ name.key = k := by
  unfold met
  simp only [List.mem_filterMap, Option.map_eq_some_iff]

theorem met_cons (v : View) (f : Finding) (fs : List Finding) :
    v.met (f :: fs) = v.met [f] ++ v.met fs :=
  List.filterMap_append (l := [f])

/-! ## One step of a scan -/

theorem findings_of_file {visited : List Key} {p : Path} {waiting : List Path}
    (h : v.directory? p = none) :
    v.findings visited (p :: waiting) = v.lookAtFile p :: v.findings visited waiting := by
  rw [findings]
  split
  next => rfl
  next name hname =>
    rw [h] at hname
    exact absurd hname (by simp)

theorem findings_of_visited {visited : List Key} {p name : Path} {waiting : List Path}
    (h : v.directory? p = some name) (hv : name.key ∈ visited) :
    v.findings visited (p :: waiting) = .revisited p :: v.findings visited waiting := by
  rw [findings]
  split
  next hnone =>
    rw [h] at hnone
    exact absurd hnone (by simp)
  next name' hname =>
    obtain rfl := Option.some.inj (h.symm.trans hname)
    exact if_pos hv

theorem findings_of_new {visited : List Key} {p name : Path} {waiting : List Path}
    (h : v.directory? p = some name) (hv : name.key ∉ visited) :
    v.findings visited (p :: waiting) = v.enter p name ::
      v.findings (name.key :: visited) ((v.enter p name).children ++ waiting) := by
  rw [findings]
  split
  next hnone =>
    rw [h] at hnone
    exact absurd hnone (by simp)
  next name' hname =>
    obtain rfl := Option.some.inj (h.symm.trans hname)
    exact if_neg hv

/-- A scan asks only which names it has visited, not in which order or how often. -/
theorem findings_congr {visited visited' : List Key} (h : ∀ k, k ∈ visited ↔ k ∈ visited')
    (waiting : List Path) : v.findings visited waiting = v.findings visited' waiting := by
  fun_induction v.findings visited waiting generalizing visited' with
  | case1 => rw [findings]
  | case2 visited p waiting hnone ih => rw [findings_of_file hnone, ih h]
  | case3 visited p waiting name hname hv ih =>
    rw [findings_of_visited hname ((h _).mp hv), ih h]
  | case4 visited p waiting name hname hv ih =>
    rw [findings_of_new hname (fun hv' => hv ((h _).mpr hv')), ih (fun k => ?_)]
    rw [List.mem_cons, List.mem_cons, h]

theorem findings_cons_of_mem {visited : List Key} {k : Key} (h : k ∈ visited)
    (waiting : List Path) : v.findings (k :: visited) waiting = v.findings visited waiting := by
  refine findings_congr (fun j => ?_) waiting
  rw [List.mem_cons]
  refine ⟨?_, Or.inr⟩
  rintro (rfl | hj)
  · exact h
  · exact hj

theorem met_cons_of_some {f : Finding} {name : Path} (h : v.directory? f.path = some name)
    (fs : List Finding) : v.met (f :: fs) = name.key :: v.met fs := by
  unfold met
  exact List.filterMap_cons_some (by rw [h]; rfl)

theorem met_cons_of_none {f : Finding} (h : v.directory? f.path = none) (fs : List Finding) :
    v.met (f :: fs) = v.met fs := by
  unfold met
  exact List.filterMap_cons_none (by rw [h]; rfl)

/-- Two lists of paths are scanned one after the other; the second scan knows what the first has
met. -/
theorem findings_append (visited : List Key) (a b : List Path) :
    v.findings visited (a ++ b)
      = v.findings visited a ++ v.findings (v.met (v.findings visited a) ++ visited) b := by
  fun_induction v.findings visited a with
  | case1 => rfl
  | case2 visited p a hnone ih =>
    rw [List.cons_append, findings_of_file hnone, ih, List.cons_append,
      met_cons_of_none (by rw [path_lookAtFile]; exact hnone)]
  | case3 visited p a name hname hv ih =>
    -- the name that is met again was visited before
    rw [List.cons_append, findings_of_visited hname hv, ih, List.cons_append,
      met_cons_of_some (f := .revisited p) hname, List.cons_append,
      findings_cons_of_mem (List.mem_append_right _ hv)]
  | case4 visited p a name hname hv ih =>
    rw [List.cons_append, findings_of_new hname hv, ← List.append_assoc, ih, List.cons_append,
      met_cons_of_some (by rw [path_enter]; exact hname), List.cons_append,
      findings_congr fun k => List.perm_middle.mem_iff]

/-! ## Every finding in its place -/

/-- What can be found by a scan that has visited these names: each path calls for one finding. -/
inductive Finds (v : View) (visited : List Key) : Finding → Prop
  | file {p : Path} : v.directory? p = none → Finds v visited (v.lookAtFile p)
  | again {p name : Path} : v.directory? p = some name → name.key ∈ visited →
      Finds v visited (.revisited p)
  | new {p name : Path} : v.directory? p = some name → name.key ∉ visited →
      Finds v visited (v.enter p name)

/-- The first finding of a scan is what its path calls for, and the others are a scan that knows
what the first has met. -/
theorem findings_eq_cons {visited : List Key} {waiting : List Path} {f : Finding}
    {rest : List Finding} (h : v.findings visited waiting = f :: rest) :
    v.Finds visited f ∧ ∃ waiting', rest = v.findings (v.met [f] ++ visited) waiting' := by
  cases waiting with
  | nil =>
    rw [findings] at h
    exact absurd h (by simp)
  | cons p waiting =>
    cases hname : v.directory? p with
    | none =>
      rw [findings_of_file hname] at h
      obtain ⟨rfl, rfl⟩ := List.cons.inj h
      rw [met_cons_of_none (by rw [path_lookAtFile]; exact hname)]
      exact ⟨.file hname, waiting, rfl⟩
    | some name =>
      by_cases hv : name.key ∈ visited
      · rw [findings_of_visited hname hv] at h
        obtain ⟨rfl, rfl⟩ := List.cons.inj h
        rw [met_cons_of_some (f := .revisited p) hname]
        exact ⟨.again hname hv, waiting, (findings_cons_of_mem hv waiting).symm⟩
      · rw [findings_of_new hname hv] at h
        obtain ⟨rfl, rfl⟩ := List.cons.inj h
        rw [met_cons_of_some (by rw [path_enter]; exact hname)]
        exact ⟨.new hname hv, _, rfl⟩

/-- What comes after some findings of a scan is a scan that knows what they have met. -/
theorem exists_findings_of_append {visited : List Key} {waiting : List Path}
    {before after : List Finding} (h : v.findings visited waiting = before ++ after) :
    ∃ waiting', after = v.findings (v.met before ++ visited) waiting' := by
  induction before generalizing visited waiting with
  | nil => exact ⟨waiting, h.symm⟩
  | cons f before ih =>
    obtain ⟨-, waiting₁, hrest⟩ := findings_eq_cons h
    obtain ⟨waiting₂, hafter⟩ := ih hrest.symm
    refine ⟨waiting₂, hafter.trans (findings_congr (fun k => ?_) _)⟩
    rw [met_cons v f before, List.append_assoc]
    exact (List.perm_append_comm_assoc _ _ _).mem_iff

/-- Each finding of a scan is what its path calls for once the findings before it are known. -/
theorem finds_of_append {visited : List Key} {waiting : List Path}
    {before after : List Finding} {f : Finding}
    (h : v.findings visited waiting = before ++ f :: after) :
    v.Finds (v.met before ++ visited) f := by
  obtain ⟨waiting', hrest⟩ := exists_findings_of_append h
  exact (findings_eq_cons hrest.symm).1

/-! ## How much is found -/

/-- The names of the directories that were entered. -/
def enteredKeys (fs : List Finding) : List Key :=
  fs.filterMap fun
    | .entered _ name _ => some name.key
    | _ => none

theorem enteredKeys_lookAtFile (p : Path) (fs : List Finding) :
    enteredKeys (v.lookAtFile p :: fs) = enteredKeys fs := by
  unfold lookAtFile
  split
  next => split <;> rfl
  next => rfl

theorem enteredKeys_enter (p name : Path) :
    (∀ fs, enteredKeys (v.enter p name :: fs) = name.key :: enteredKeys fs) ∨
      ∀ fs, enteredKeys (v.enter p name :: fs) = enteredKeys fs := by
  unfold enter
  split
  next => exact Or.inl fun _ => rfl
  next => exact Or.inr fun _ => rfl

/-- No directory is entered twice, and none that was visited before. -/
theorem nodup_enteredKeys (visited : List Key) (waiting : List Path) :
    (enteredKeys (v.findings visited waiting)).Nodup ∧
      ∀ k ∈ enteredKeys (v.findings visited waiting), k ∉ visited := by
  fun_induction v.findings visited waiting with
  | case1 => exact ⟨List.nodup_nil, fun k hk => absurd hk (by simp [enteredKeys])⟩
  | case2 visited p waiting hnone ih =>
    rw [enteredKeys_lookAtFile]
    exact ih
  | case3 visited p waiting name hname hv ih => exact ih
  | case4 visited p waiting name hname hv ih =>
    obtain ⟨hnodup, hnot⟩ := ih
    have hfresh : ∀ k ∈ enteredKeys (v.findings (name.key :: visited)
        ((v.enter p name).children ++ waiting)), k ∉ visited :=
      fun k hk hmem => hnot k hk (List.mem_cons_of_mem _ hmem)
    rcases enteredKeys_enter p name with hlisted | hrefused
    · rw [hlisted]
      refine ⟨List.nodup_cons.mpr ⟨fun hk => ?_, hnodup⟩, fun k hk => ?_⟩
      · exact hnot name.key hk (List.mem_cons_self ..)
      · rcases List.mem_cons.mp hk with rfl | hk
        · exact hv
        · exact hfresh k hk
    · rw [hrefused]
      exact ⟨hnodup, hfresh⟩

/-- Every waiting path is looked at once, and so is every entry of a directory that is entered;
no other path is. -/
theorem paths_perm (visited : List Key) (waiting : List Path) :
    ((v.findings visited waiting).map Finding.path).Perm
      (waiting ++ (v.findings visited waiting).flatMap Finding.children) := by
  fun_induction v.findings visited waiting with
  | case1 => exact .nil
  | case2 visited p waiting hnone ih =>
    rw [List.map_cons, List.flatMap_cons, path_lookAtFile, children_lookAtFile]
    exact ih.cons p
  | case3 visited p waiting name hname hv ih => exact ih.cons p
  | case4 visited p waiting name hname hv ih =>
    rw [List.map_cons, List.flatMap_cons, path_enter, List.cons_append]
    rw [List.append_assoc] at ih
    -- its entries wait in front of the others, and are counted behind them
    exact (ih.trans (List.perm_append_comm_assoc _ _ _)).cons p

end PollWatch.View
