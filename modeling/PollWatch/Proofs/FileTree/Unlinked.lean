import PollWatch.Proofs.FileTree.Reachable
import PollWatch.Proofs.FileTree.Straight

/-!
# Trees without links

No link is stored unless one is added (`ReachableBy.unlinked`). Where none is, every
path leads to its own key, and each question about a path is one about the entry stored there:

> `Unlinked.isDirectory_iff`, `Unlinked.list_eq_ok_iff`, `Unlinked.modified_eq_ok_iff`

and a path leads to something, a directory or a file, exactly if an entry is stored under
its key (`Unlinked.found_iff`).
-/

namespace PollWatch.FileTree

variable {t u : FileTree}

/-! ## No link is stored -/

/-- The change is not the addition of a link. -/
def Change.AddsNoLink : Change → Prop
  | .addLink _ _ => False
  | _ => True

/-- No link is stored. -/
def Unlinked (t : FileTree) : Prop := ∀ k target, t.get? k ≠ some (.link target)

theorem unlinked_new : Unlinked .new := by
  intro k target h
  exact absurd (get?_new_eq_some_iff.mp h).2 (by simp)

theorem Unlinked.erase (h : t.Unlinked) (k : Key) : (t.erase k).Unlinked := by
  intro j target hj
  rw [get?_erase] at hj
  split at hj
  next => exact absurd hj (by simp)
  next => exact h j target hj

theorem Unlinked.set (h : t.Unlinked) (k : Key) {e : Entry}
    (he : ∀ target, e ≠ .link target) : (t.set k e).Unlinked := by
  intro j target hj
  rw [get?_set] at hj
  split at hj
  next => exact he target (Option.some.inj hj)
  next => exact h j target hj

theorem Unlinked.insert (h : t.Unlinked) (p : Path) {e : Entry}
    (he : ∀ target, e ≠ .link target) : (t.insert p e).Unlinked := by
  intro j target hj
  have hset := h.set p.key he j target
  rw [get?_set] at hset
  exact hset ((t.get?_insert_eq_some_iff p e j (by simp)).mp hj)

theorem Unlinked.apply (h : t.Unlinked) {c : Change} (hc : c.AddsNoLink)
    (hu : t.apply c = .ok u) : u.Unlinked := by
  cases applied_of_apply hu with
  | kept => exact h
  | addFile p => exact h.insert p (by simp)
  | @addDirectory p => exact h.insert p (by simp)
  | addLink => exact absurd hc id
  | rewritten _ _ he =>
    refine h.set _ fun target => ?_
    cases he with
    | file => simp
    | directory => simp
  | vanish p => exact h.erase p.key
  | @unlisted p => exact (h.erase p.key).set p.key.parent (by simp)
  | @remove p => exact h.erase p.key

theorem ReachableBy.unlinked {allowed : FileTree → Change → Prop}
    (hallowed : ∀ t c, allowed t c → c.AddsNoLink) (h : t.ReachableBy allowed) : t.Unlinked := by
  induction h with
  | new => exact unlinked_new
  | change _ hc hu ih => exact ih.apply (hallowed _ _ hc) hu

/-! ## Questions -/

theorem Unlinked.plain (h : t.Unlinked) (k : Key) : t.Plain k := fun j _ _ target => h j target

theorem Unlinked.locate (h : t.Unlinked) (p : Path) :
    t.locate p = .ok (straight p.key, t.get? p.key) :=
  locate_of_plain (h.plain p.key)

theorem Unlinked.resolve? (h : t.Unlinked) (p : Path) : t.resolve? p = some (straight p.key) :=
  resolve?_of_plain (h.plain p.key)

theorem Unlinked.directory?_eq_some_iff (h : t.Unlinked) {p q : Path} :
    t.directory? p = some q ↔ q = straight p.key ∧
      ∃ children listable, t.get? p.key = some (.directory children listable) := by
  rw [FileTree.directory?_eq_some_iff, h.resolve?]
  constructor
  · rintro ⟨hq, hdir⟩
    obtain rfl := Option.some.inj hq
    rw [key_straight] at hdir
    exact ⟨rfl, hdir⟩
  · rintro ⟨rfl, hdir⟩
    rw [key_straight]
    exact ⟨rfl, hdir⟩

theorem Unlinked.isDirectory_iff (h : t.Unlinked) {p : Path} :
    t.isDirectory p = true ↔
      ∃ children listable, t.get? p.key = some (.directory children listable) := by
  rw [← directory?_isSome, Option.isSome_iff_exists]
  constructor
  · rintro ⟨q, hq⟩
    exact (h.directory?_eq_some_iff.mp hq).2
  · intro hdir
    exact ⟨_, h.directory?_eq_some_iff.mpr ⟨rfl, hdir⟩⟩

theorem Unlinked.isDirectory_eq_false (h : t.Unlinked) {p : Path} {seconds : Nat} {readable : Bool}
    (hget : t.get? p.key = some (.file seconds readable)) : t.isDirectory p = false := by
  rw [Bool.eq_false_iff]
  intro hdir
  obtain ⟨children, listable, hget'⟩ := h.isDirectory_iff.mp hdir
  rw [hget] at hget'
  exact absurd hget' (by simp)

theorem Unlinked.list_eq_ok_iff (h : t.Unlinked) {p : Path} {entries : List Path} :
    t.list p = .ok entries ↔
      ∃ children, t.get? p.key = some (.directory children true) ∧
        entries = children.map p.child := by
  rw [FileTree.list_eq_ok_iff, h.resolve?]
  constructor
  · rintro ⟨q, children, hq, hget, hentries⟩
    obtain rfl := Option.some.inj hq
    rw [key_straight] at hget
    exact ⟨children, hget, hentries⟩
  · rintro ⟨children, hget, hentries⟩
    exact ⟨_, children, rfl, by rw [key_straight]; exact hget, hentries⟩

theorem Unlinked.modified_eq_ok_iff (h : t.Unlinked) {p : Path} {i : Instant}
    (hdir : t.isDirectory p = false) :
    t.modified p = .ok i ↔ ∃ seconds, t.get? p.key = some (.file seconds true) ∧
      i = (seconds * Timestamp.perSecond : Nat) := by
  rw [FileTree.modified_eq_ok_iff hdir, h.resolve?]
  constructor
  · rintro ⟨q, seconds, hq, hget, hi⟩
    obtain rfl := Option.some.inj hq
    rw [key_straight] at hget
    exact ⟨seconds, hget, hi⟩
  · rintro ⟨seconds, hget, hi⟩
    exact ⟨_, seconds, rfl, by rw [key_straight]; exact hget, hi⟩

/-- The path leads to a directory, or to a file that can be read or not. -/
def Found (t : FileTree) (p : Path) : Prop :=
  (∃ q, t.canonical p = .ok q) ∧
    (t.isDirectory p = true ∨ (∃ i, t.modified p = .ok i) ∨
      t.modified p = .error (.permissionDenied p))

theorem Unlinked.found_iff (h : t.Unlinked) {p : Path} : t.Found p ↔ (t.get? p.key).isSome := by
  unfold Found canonical isDirectory modified
  rw [h.locate]
  cases hget : t.get? p.key with
  | none => simp
  | some e =>
    cases e with
    | file seconds readable => cases readable <;> simp
    | directory children listable => simp
    | link target => exact absurd hget (h p.key target)

end PollWatch.FileTree
