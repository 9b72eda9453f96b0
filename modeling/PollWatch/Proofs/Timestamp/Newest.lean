import PollWatch.Timestamp

/-!
# The newest of some timestamps

`newest` folds a list from zero on. It is no older than any member (`le_newest`),
and it is one of them unless there is none (`newest_mem`): starting from zero
adds nothing, because no timestamp is older than zero. So the newest of two lists
together is the newer of the two newest (`newest_append`).
-/

namespace PollWatch.Timestamp

theorem nanos_max (s t : Timestamp) : (max s t).nanos = Nat.max s.nanos t.nanos := rfl

theorem ext_nanos {s t : Timestamp} (h : s.nanos = t.nanos) : s = t := by
  cases s
  cases t
  cases h
  rfl

theorem max_cases (s t : Timestamp) : max s t = s ∨ max s t = t := by
  rcases Nat.le_total s.nanos t.nanos with h | h
  · exact Or.inr (ext_nanos (Nat.max_eq_right h))
  · exact Or.inl (ext_nanos (Nat.max_eq_left h))

theorem le_foldl_max (ts : List Timestamp) :
    ∀ s : Timestamp, s.nanos ≤ (ts.foldl max s).nanos ∧
      ∀ t ∈ ts, t.nanos ≤ (ts.foldl max s).nanos := by
  induction ts with
  | nil => exact fun s => ⟨Nat.le_refl _, fun t ht => absurd ht (by simp)⟩
  | cons u ts ih =>
    intro s
    rw [List.foldl_cons]
    obtain ⟨hstart, hrest⟩ := ih (max s u)
    rw [nanos_max] at hstart
    refine ⟨Nat.le_trans (Nat.le_max_left ..) hstart, fun t ht => ?_⟩
    rcases List.mem_cons.mp ht with rfl | ht
    · exact Nat.le_trans (Nat.le_max_right ..) hstart
    · exact hrest t ht

theorem foldl_max_mem (ts : List Timestamp) :
    ∀ s : Timestamp, ts.foldl max s = s ∨ ts.foldl max s ∈ ts := by
  induction ts with
  | nil => exact fun s => Or.inl rfl
  | cons u ts ih =>
    intro s
    rw [List.foldl_cons]
    rcases ih (max s u) with h | h
    · rw [h]
      rcases max_cases s u with h | h
      · exact Or.inl h
      · rw [h]
        exact Or.inr (List.mem_cons_self ..)
    · exact Or.inr (List.mem_cons_of_mem _ h)

theorem le_newest {ts : List Timestamp} {t : Timestamp} (h : t ∈ ts) :
    t.nanos ≤ (newest ts).nanos :=
  (le_foldl_max ts zero).2 t h

theorem newest_mem {ts : List Timestamp} (h : ts ≠ []) : newest ts ∈ ts := by
  rcases foldl_max_mem ts zero with hzero | hmem
  · -- the newest is zero, so every member is
    obtain ⟨t, ht⟩ := List.exists_mem_of_ne_nil ts h
    have hle : t.nanos ≤ 0 := by
      have := le_newest ht
      unfold newest at this
      rwa [hzero] at this
    have htz : t = zero := ext_nanos (Nat.le_zero.mp hle)
    show ts.foldl max zero ∈ ts
    rw [hzero, ← htz]
    exact ht
  · exact hmem

/-- A member that no other is newer than is the newest. -/
theorem newest_eq_of_mem {ts : List Timestamp} {t : Timestamp} (h : t ∈ ts)
    (hle : ∀ s ∈ ts, s.nanos ≤ t.nanos) : newest ts = t :=
  ext_nanos (Nat.le_antisymm (hle _ (newest_mem (List.ne_nil_of_mem h))) (le_newest h))

theorem max_zero_left (t : Timestamp) : max zero t = t := ext_nanos (Nat.zero_max _)

theorem max_assoc (s t u : Timestamp) : max (max s t) u = max s (max t u) :=
  ext_nanos (Nat.max_assoc ..)

theorem foldl_max (ts : List Timestamp) (s : Timestamp) : ts.foldl max s = max s (newest ts) := by
  unfold newest
  induction ts generalizing s with
  | nil => exact ext_nanos (Nat.max_zero _).symm
  | cons u ts ih =>
    rw [List.foldl_cons, List.foldl_cons, ih (max s u), ih (max zero u), max_zero_left, max_assoc]

theorem newest_cons (t : Timestamp) (ts : List Timestamp) :
    newest (t :: ts) = max t (newest ts) := by
  rw [newest, List.foldl_cons, foldl_max, max_zero_left]

theorem newest_append (ss ts : List Timestamp) :
    newest (ss ++ ts) = max (newest ss) (newest ts) := by
  rw [newest, List.foldl_append, foldl_max]
  rfl

theorem newest_le_of_subset {ss ts : List Timestamp} (h : ss ⊆ ts) :
    (newest ss).nanos ≤ (newest ts).nanos := by
  by_cases hnil : ss = []
  · rw [hnil]
    exact Nat.zero_le _
  · exact le_newest (h (newest_mem hnil))

theorem newest_congr {ss ts : List Timestamp} (h : ∀ t, t ∈ ss ↔ t ∈ ts) :
    newest ss = newest ts :=
  ext_nanos (Nat.le_antisymm (newest_le_of_subset fun _ ht => (h _).mp ht)
    (newest_le_of_subset fun _ ht => (h _).mpr ht))

theorem newest_eq_zero_iff {ts : List Timestamp} : newest ts = zero ↔ ∀ t ∈ ts, t = zero := by
  constructor
  · intro hzero t ht
    have hle := le_newest ht
    rw [hzero] at hle
    exact ext_nanos (Nat.le_zero.mp hle)
  · intro hall
    by_cases hnil : ts = []
    · rw [hnil]
      rfl
    · exact hall _ (newest_mem hnil)

end PollWatch.Timestamp
