import PollWatch.CommandLine.Interval

/-!
# Digits

Digits are read from the left, and reading stops as soon as the number is too large. The number
only grows, so what counts is the number that all digits together denote:

> `readDigits_eq_ok_iff`: a word is read as `n` exactly if it is digits that denote `n`,
> and `n` is not too large.

A positive number that is not too large is therefore read back from its decimal digits
(`readInterval_decimal`).
-/

namespace PollWatch

namespace Bytes

/-- A text is encoded character by character. -/
theorem ofString_eq_flatMap (s : String) : ofString s = s.toList.flatMap String.utf8EncodeChar := by
  unfold ofString
  rw [String.toUTF8_eq_toByteArray, ← String.utf8Encode_toList]
  exact List.toList_data_toByteArray

theorem ofString_append (s t : String) : ofString (s ++ t) = ofString s ++ ofString t := by
  rw [ofString_eq_flatMap, ofString_eq_flatMap, ofString_eq_flatMap, String.toList_append,
    List.flatMap_append]

end Bytes

namespace CommandLine

/-! ## Characters and their bytes -/

/-- A character of ASCII is one byte, its code. The encoding of any other begins with a byte that
is no ASCII. -/
theorem utf8EncodeChar_cases (c : Char) :
    (∃ b : UInt8, String.utf8EncodeChar c = [b] ∧ b.toNat = c.toNat) ∨
      ∃ b rest, String.utf8EncodeChar c = b :: rest ∧ 128 ≤ b.toNat ∧ 128 ≤ c.toNat := by
  have hcode : ∀ v, v < 256 → (UInt8.ofNat v).toNat = v := fun v hv => by
    rw [UInt8.toNat_ofNat']
    exact Nat.mod_eq_of_lt hv
  unfold String.utf8EncodeChar
  dsimp only
  rw [Char.toNat_val]
  split
  next hascii => exact Or.inl ⟨_, rfl, hcode _ (by omega)⟩
  next hlong =>
    right
    split
    next => exact ⟨_, _, rfl, by rw [hcode _ (by omega)]; omega, by omega⟩
    next =>
      split
      next => exact ⟨_, _, rfl, by rw [hcode _ (by omega)]; omega, by omega⟩
      next => exact ⟨_, _, rfl, by rw [hcode _ (by omega)]; omega, by omega⟩

/-- Which character of ASCII a text begins with is told by its first byte. -/
theorem utf8EncodeChar_head_iff {a c : Char} {b : UInt8} {rest : Bytes} (ha : a.toNat < 128)
    (h : String.utf8EncodeChar c = b :: rest) : b.toNat = a.toNat ↔ c = a := by
  have hchar : c = a ↔ c.toNat = a.toNat := Char.toNat_inj.symm
  rw [hchar]
  rcases utf8EncodeChar_cases c with ⟨b', hb, hcode⟩ | ⟨b', tail, hb, hlarge, hc⟩
  · obtain ⟨rfl, -⟩ := List.cons.inj (hb.symm.trans h)
    rw [hcode]
  · obtain ⟨rfl, -⟩ := List.cons.inj (hb.symm.trans h)
    omega

/-! ## What digits denote -/

/-- A byte that is an ASCII digit. -/
def IsDigit (b : UInt8) : Prop := 48 ≤ b ∧ b ≤ 57

/-- A digit behind those that make `m`. -/
def appendDigit (m : Nat) (b : UInt8) : Nat := m * 10 + (b.toNat - 48)

/-- The number that digits denote behind those that make `m`. -/
def valueFrom (m : Nat) (w : Bytes) : Nat := w.foldl appendDigit m

theorem le_appendDigit (m : Nat) (b : UInt8) : m ≤ appendDigit m b := by
  unfold appendDigit
  omega

theorem le_valueFrom (m : Nat) (w : Bytes) : m ≤ valueFrom m w := by
  unfold valueFrom
  induction w generalizing m with
  | nil => exact Nat.le_refl m
  | cons b w ih => exact Nat.le_trans (le_appendDigit m b) (ih (appendDigit m b))

theorem digit?_eq_some_iff {b : UInt8} {d : Nat} :
    digit? b = some d ↔ IsDigit b ∧ d = b.toNat - 48 := by
  unfold digit? IsDigit
  rw [Option.ite_none_right_eq_some, Option.some.injEq, eq_comm]

theorem digit?_eq_none_iff {b : UInt8} : digit? b = none ↔ ¬ IsDigit b := by
  unfold digit? IsDigit
  simp

/-- One digit more is read if it is a digit and the number stays small enough. -/
theorem readDigits_cons_eq_ok_iff {m n : Nat} {b : UInt8} {w : Bytes} :
    readDigits m (b :: w) = .ok n ↔
      IsDigit b ∧ appendDigit m b ≤ maxInterval ∧ readDigits (appendDigit m b) w = .ok n := by
  rw [readDigits]
  cases hb : digit? b with
  | none => simp [digit?_eq_none_iff.mp hb]
  | some d =>
    obtain ⟨hdigit, rfl⟩ := digit?_eq_some_iff.mp hb
    show (if maxInterval < appendDigit m b then _ else readDigits (appendDigit m b) w) = _ ↔ _
    split
    next hlarge => simp [Nat.not_le.mpr hlarge]
    next hlarge => simp [hdigit, Nat.not_lt.mp hlarge]

/-- **Digits are read as the number that they denote**, unless it is too large. -/
theorem readDigits_eq_ok_iff {m n : Nat} {w : Bytes} :
    readDigits m w = .ok n ↔
      (∀ b ∈ w, IsDigit b) ∧ n = valueFrom m w ∧ (w ≠ [] → n ≤ maxInterval) := by
  induction w generalizing m with
  | nil =>
    rw [readDigits, Except.ok.injEq]
    simp [valueFrom, eq_comm]
  | cons b w ih =>
    have hvalue : valueFrom m (b :: w) = valueFrom (appendDigit m b) w := List.foldl_cons ..
    rw [readDigits_cons_eq_ok_iff, ih, List.forall_mem_cons, hvalue]
    -- the digits that follow make the number no smaller
    have hle := le_valueFrom (appendDigit m b) w
    constructor
    · rintro ⟨hdigit, hsmall, hdigits, rfl, hmax⟩
      refine ⟨⟨hdigit, hdigits⟩, rfl, fun _ => ?_⟩
      cases w with
      | nil => exact hsmall
      | cons c w => exact hmax (List.cons_ne_nil c w)
    · rintro ⟨⟨hdigit, hdigits⟩, rfl, hmax⟩
      have hsmall := hmax (List.cons_ne_nil b w)
      exact ⟨hdigit, Nat.le_trans hle hsmall, hdigits, rfl, fun _ => hsmall⟩

/-! ## Decimal digits -/

/-- The decimal digits of a number. -/
def decimal (n : Nat) : Bytes := Bytes.ofString (toString n)

theorem utf8EncodeChar_digitChar {d : Nat} (h : d < 10) :
    String.utf8EncodeChar d.digitChar = [UInt8.ofNat (48 + d)] := by
  have hcode : d.digitChar.val.toNat = 48 + d := Nat.toNat_digitChar_of_lt_ten h
  unfold String.utf8EncodeChar
  rw [hcode]
  exact if_pos (by omega)

/-- The last digit stands at the end. -/
theorem decimal_eq (n : Nat) :
    decimal n = (if n < 10 then [] else decimal (n / 10)) ++ [UInt8.ofNat (48 + n % 10)] := by
  have hflat : ∀ n, decimal n = (Nat.toDigits 10 n).flatMap String.utf8EncodeChar := fun n => by
    show Bytes.ofString n.repr = _
    rw [Bytes.ofString_eq_flatMap, Nat.toList_repr]
  have hlast : String.utf8EncodeChar (n % 10).digitChar = [UInt8.ofNat (48 + n % 10)] :=
    utf8EncodeChar_digitChar (Nat.mod_lt n (by decide))
  rw [hflat, hflat, Nat.toDigits_eq_if (by decide)]
  split
  next hsmall =>
    rw [Nat.mod_eq_of_lt hsmall] at hlast ⊢
    simp [hlast]
  next => rw [List.flatMap_append, List.flatMap_singleton, hlast]

theorem isDigit_of_lt {d : Nat} (h : d < 10) : IsDigit (UInt8.ofNat (48 + d)) := by
  have hcode : (UInt8.ofNat (48 + d)).toNat = 48 + d := by
    rw [UInt8.toNat_ofNat']
    omega
  refine ⟨UInt8.le_iff_toNat_le.mpr ?_, UInt8.le_iff_toNat_le.mpr ?_⟩
  · rw [hcode]
    exact Nat.le_add_right 48 d
  · rw [hcode]
    exact Nat.le_of_lt_succ (Nat.add_lt_add_left h 48)

theorem appendDigit_ofNat (m : Nat) {d : Nat} (h : d < 10) :
    appendDigit m (UInt8.ofNat (48 + d)) = m * 10 + d := by
  unfold appendDigit
  rw [UInt8.toNat_ofNat']
  omega

theorem decimal_ne_nil (n : Nat) : decimal n ≠ [] := by
  rw [decimal_eq]
  simp

theorem isDigit_of_mem_decimal {n : Nat} {b : UInt8} (h : b ∈ decimal n) : IsDigit b := by
  induction n using Nat.strongRecOn with
  | _ n ih =>
    rw [decimal_eq, List.mem_append, List.mem_singleton] at h
    rcases h with h | rfl
    · split at h
      next => exact absurd h List.not_mem_nil
      next hlarge => exact ih (n / 10) (by omega) h
    · exact isDigit_of_lt (Nat.mod_lt n (by decide))

/-- A number is what its decimal digits denote. -/
theorem valueFrom_decimal (n : Nat) : valueFrom 0 (decimal n) = n := by
  induction n using Nat.strongRecOn with
  | _ n ih =>
    have hlast : n % 10 < 10 := Nat.mod_lt n (by decide)
    rw [decimal_eq, valueFrom, List.foldl_append, List.foldl_cons, List.foldl_nil]
    split
    next hsmall =>
      rw [List.foldl_nil, appendDigit_ofNat 0 hlast]
      omega
    next =>
      have hfront : (decimal (n / 10)).foldl appendDigit 0 = n / 10 := ih (n / 10) (by omega)
      rw [hfront, appendDigit_ofNat _ hlast]
      omega

/-- **An interval is read back from its decimal digits**, up to the greatest. -/
theorem readInterval_decimal {n : Nat} (hpos : 1 ≤ n) (hmax : n ≤ maxInterval) :
    readInterval (decimal n) = .ok n := by
  have hdigits : readDigits 0 (decimal n) = .ok n :=
    readDigits_eq_ok_iff.mpr
      ⟨fun b hb => isDigit_of_mem_decimal hb, (valueFrom_decimal n).symm, fun _ => hmax⟩
  have hnumber : readNumber (decimal n) = .ok n := by
    cases hw : decimal n with
    | nil => exact absurd hw (decimal_ne_nil n)
    | cons b w =>
      -- a digit is no plus sign
      have hplus : b ≠ 43 := by
        rintro rfl
        have hdigit : IsDigit 43 := isDigit_of_mem_decimal (hw ▸ List.mem_cons_self ..)
        exact absurd hdigit.1 (by decide)
      rw [readNumber, if_neg fun h => hplus h.1, ← hw, hdigits]
  unfold readInterval
  rw [hnumber]
  cases n with
  | zero => exact absurd hpos (by decide)
  | succ n => rfl

end CommandLine

end PollWatch
