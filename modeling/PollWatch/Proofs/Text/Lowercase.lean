import Mathlib
import PollWatch.Text.Lowercase

/-!
# Texts whose lower case is ASCII

Few characters outside ASCII come near it: one becomes the letter `k`, and one a letter with a
mark behind it. All others stay outside (`exists_nonAscii_lowercase`), wherever they stand. So
where the lower case of a text is ASCII, it was made one character from one:

> `lowercaseAll_eq_iff`: a text of ASCII is the lower case of exactly the texts whose characters,
> one by one, have its characters as their lower case.

For a small letter other than `k` these are the letter and its capital
(`lowercase_eq_singleton_iff`).
-/

namespace PollWatch.Text

/-! ## Runs of capitals -/

/-- The lower case of every capital of the run is a character, and lies outside ASCII. -/
def CaseRun.NonAscii (r : CaseRun) : Prop :=
  0x80 ≤ r.first + r.distance ∧
    (r.last + r.distance < 0xD800 ∨
      0xDFFF < r.first + r.distance ∧ r.last + r.distance < 0x110000)

instance : DecidablePred CaseRun.NonAscii := fun _ => inferInstanceAs (Decidable (_ ∧ _))

/-- Only the sign for Kelvin is mapped into ASCII. -/
theorem nonAscii_of_mem_caseRuns :
    ∀ r ∈ caseRuns, r.NonAscii ∨ r.first = 0x212A ∧ r.last = 0x212A := by
  decide +kernel

theorem CaseRun.bounds_of_covers {r : CaseRun} {n : Nat} (h : r.covers n) :
    r.first ≤ n ∧ n ≤ r.last := by
  simp only [CaseRun.covers, Bool.and_eq_true, decide_eq_true_eq] at h
  exact h.1

theorem CaseRun.NonAscii.le_toNat {r : CaseRun} (h : r.NonAscii) {n : Nat} (hn : r.covers n) :
    0x80 ≤ (Char.ofNat (n + r.distance).toNat).toNat := by
  obtain ⟨hfirst, hlast⟩ := CaseRun.bounds_of_covers hn
  obtain ⟨hlarge, hrange⟩ := h
  have hvalid : (n + r.distance).toNat.isValidChar := by
    unfold Nat.isValidChar
    omega
  rw [Char.toNat_ofNat, if_pos hvalid]
  omega

/-! ## One character -/

section Character

variable {c x : Char}

theorem lowercase_of_ascii (h : c.toNat < 0x80) : lowercase c = [c.toLower] := if_pos h

theorem lowercase_kelvin : lowercase '\u212A' = ['k'] := by decide +kernel

/-- The lower case of a character outside ASCII holds one outside ASCII, the sign for Kelvin
apart. -/
theorem exists_nonAscii_lowercase (h : 0x80 ≤ c.toNat) (hkelvin : c ≠ '\u212A') :
    ∃ d ∈ lowercase c, 0x80 ≤ d.toNat := by
  unfold lowercase
  rw [if_neg (Nat.not_lt.mpr h)]
  split
  next => exact ⟨'\u0307', by simp, by decide⟩
  next =>
    split
    next r hr =>
      have hcovers := List.find?_some hr
      rcases nonAscii_of_mem_caseRuns r (List.mem_of_find?_eq_some hr) with hrun | ⟨hfirst, hlast⟩
      · exact ⟨_, List.mem_singleton_self _, hrun.le_toNat hcovers⟩
      · have hbounds := CaseRun.bounds_of_covers hcovers
        have hc : c.toNat = 0x212A := by omega
        exact absurd (Char.toNat_inj.mp hc) hkelvin
    next => exact ⟨c, List.mem_singleton_self c, h⟩

/-- Where a character stands changes nothing of that. -/
theorem exists_nonAscii_lowercaseAt (h : 0x80 ≤ c.toNat) (hkelvin : c ≠ '\u212A')
    (before behind : List Char) : ∃ d ∈ lowercaseAt before c behind, 0x80 ≤ d.toNat := by
  unfold lowercaseAt
  split
  next =>
    refine ⟨_, List.mem_singleton_self _, ?_⟩
    split <;> decide
  next => exact exists_nonAscii_lowercase h hkelvin

/-- Any other character has one character as its lower case, wherever it stands. -/
theorem exists_lowercaseAt_eq_singleton (h : c.toNat < 0x80 ∨ c = '\u212A')
    (before behind : List Char) : ∃ x, lowercaseAt before c behind = [x] ∧ lowercase c = [x] := by
  have hsigma : c ≠ '\u03A3' := by
    rintro rfl
    revert h
    decide
  have hat : lowercaseAt before c behind = lowercase c := if_neg hsigma
  rcases h with hascii | rfl
  · exact ⟨c.toLower, hat.trans (lowercase_of_ascii hascii), lowercase_of_ascii hascii⟩
  · exact ⟨'k', hat.trans lowercase_kelvin, lowercase_kelvin⟩

end Character

/-! ## A text -/

/-- Whatever stands before it, a text has ASCII as its lower case only character by character. -/
theorem lowercaseFrom_eq_iff {before cs w : List Char} (hw : ∀ x ∈ w, x.toNat < 0x80) :
    lowercaseFrom before cs = w ↔ List.Forall₂ (fun c x => lowercase c = [x]) cs w := by
  induction cs generalizing before w with
  | nil => rw [List.forall₂_nil_left_iff, lowercaseFrom, eq_comm]
  | cons c cs ih =>
    by_cases hc : c.toNat < 0x80 ∨ c = '\u212A'
    · obtain ⟨x, hat, hx⟩ := exists_lowercaseAt_eq_singleton hc before cs
      rw [lowercaseFrom, hat, List.singleton_append]
      cases w with
      | nil => simp
      | cons y w =>
        rw [List.cons_eq_cons, List.forall₂_cons, hx, List.singleton_inj,
          ih (List.forall_mem_cons.mp hw).2]
    · -- the lower case holds a character outside ASCII, and `w` holds none
      obtain ⟨hlarge, hkelvin⟩ := not_or.mp hc
      rw [Nat.not_lt] at hlarge
      constructor
      · rintro rfl
        obtain ⟨d, hd, hnonAscii⟩ := exists_nonAscii_lowercaseAt hlarge hkelvin before cs
        have hascii : d.toNat < 0x80 := hw d (List.mem_append_left _ hd)
        omega
      · intro hall
        obtain ⟨y, rest, hy, -, rfl⟩ := List.forall₂_cons_left_iff.mp hall
        obtain ⟨d, hd, hnonAscii⟩ := exists_nonAscii_lowercase hlarge hkelvin
        rw [hy, List.mem_singleton] at hd
        have hascii : d.toNat < 0x80 := hd ▸ hw y (List.mem_cons_self ..)
        omega

/-- **A text of ASCII is the lower case of exactly the texts whose characters, one by one, have
its characters as their lower case.** -/
theorem lowercaseAll_eq_iff {cs w : List Char} (hw : ∀ x ∈ w, x.toNat < 0x80) :
    lowercaseAll cs = w ↔ List.Forall₂ (fun c x => lowercase c = [x]) cs w :=
  lowercaseFrom_eq_iff hw

/-! ## Letters in either case -/

/-- A character is a letter or its capital. -/
def InEitherCase (c x : Char) : Prop := c = x ∨ c = x.toUpper

section Letter

variable {c x : Char}

theorem isAlpha_iff_toNat :
    c.isAlpha ↔ 65 ≤ c.toNat ∧ c.toNat ≤ 90 ∨ 97 ≤ c.toNat ∧ c.toNat ≤ 122 := by
  simp [Char.isAlpha, Char.isUpper, Char.isLower, UInt32.le_iff_toNat_le]

theorem toNat_lt_of_isAlpha (h : c.isAlpha) : c.toNat < 0x80 := by
  rw [isAlpha_iff_toNat] at h
  omega

theorem isAlpha_of_isLower (h : x.isLower) : x.isAlpha := by simp [Char.isAlpha, h]

theorem InEitherCase.isAlpha (h : InEitherCase c x) (hx : x.isLower) : c.isAlpha := by
  rcases h with rfl | rfl
  · exact isAlpha_of_isLower hx
  · rw [Char.isAlpha_toUpper_eq_isAlpha]
    exact isAlpha_of_isLower hx

theorem toLower_eq_iff (hx : x.isLower) : c.toLower = x ↔ InEitherCase c x := by
  constructor
  · rintro rfl
    by_cases hc : c.isUpper
    · refine Or.inr ?_
      rw [Char.toUpper_toLower_eq_toUpper,
        Char.toUpper_eq_of_not_isLower (Char.not_isLower_of_isUpper hc)]
    · exact Or.inl (Char.toLower_eq_of_not_isUpper hc).symm
  · have hsmall : x.toLower = x := Char.toLower_eq_of_not_isUpper (Char.not_isUpper_of_isLower hx)
    rintro (rfl | rfl)
    · exact hsmall
    · rw [Char.toLower_toUpper_eq_toLower, hsmall]

/-- **A small letter other than `k` is the lower case of itself and of its capital alone.** -/
theorem lowercase_eq_singleton_iff (hx : x.isLower) (hk : x ≠ 'k') :
    lowercase c = [x] ↔ InEitherCase c x := by
  have hascii : x.toNat < 0x80 := toNat_lt_of_isAlpha (isAlpha_of_isLower hx)
  by_cases hc : c.toNat < 0x80
  · rw [lowercase_of_ascii hc, List.singleton_inj, toLower_eq_iff hx]
  · refine ⟨fun h => ?_, fun h => absurd (toNat_lt_of_isAlpha (h.isAlpha hx)) hc⟩
    by_cases hkelvin : c = '\u212A'
    · rw [hkelvin, lowercase_kelvin, List.singleton_inj] at h
      exact absurd h.symm hk
    · obtain ⟨d, hd, hnonAscii⟩ := exists_nonAscii_lowercase (Nat.not_lt.mp hc) hkelvin
      rw [h, List.mem_singleton] at hd
      exact absurd (hd ▸ hascii) (Nat.not_lt.mpr hnonAscii)

end Letter

end PollWatch.Text
