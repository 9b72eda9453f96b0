import PollWatch.Proofs.CommandLine.Digits

/-!
# Which texts are intervals

An interval is read byte by byte, and its range is looked at on the way. Said of texts:

> `readInterval_text`: an interval is read from exactly the texts that write it, which are ASCII
> digits that denote a positive number of 64 bits, perhaps behind one plus sign.

A byte of ASCII stands for its own character only (`utf8EncodeChar_cases`); so the bytes
of a text are digits exactly if its characters are, and they denote the same (`readDigits_text`).
-/

namespace PollWatch.CommandLine

/-! ## Digits of a text -/

theorem isDigit_iff_toNat {b : UInt8} : IsDigit b ↔ 48 ≤ b.toNat ∧ b.toNat ≤ 57 := Iff.rfl

theorem isDigit_char_iff {c : Char} : c.isDigit ↔ 48 ≤ c.toNat ∧ c.toNat ≤ 57 :=
  Char.isDigit_iff_toNat

/-- Only a digit is encoded as digits. -/
theorem forall_isDigit_utf8EncodeChar (c : Char) :
    (∀ b ∈ String.utf8EncodeChar c, IsDigit b) ↔ c.isDigit := by
  rw [isDigit_char_iff]
  rcases utf8EncodeChar_cases c with ⟨b, hb, hcode⟩ | ⟨b, rest, hb, hlarge, hc⟩
  · rw [hb, List.forall_mem_singleton, isDigit_iff_toNat, hcode]
  · rw [hb, List.forall_mem_cons, isDigit_iff_toNat]
    omega

/-- A digit denotes the same as its encoding. -/
theorem valueFrom_utf8EncodeChar {c : Char} (h : c.isDigit) (m : Nat) :
    valueFrom m (String.utf8EncodeChar c) = 10 * m + (c.toNat - '0'.toNat) := by
  rw [isDigit_char_iff] at h
  rcases utf8EncodeChar_cases c with ⟨b, hb, hcode⟩ | ⟨b, rest, hb, hlarge, hc⟩
  · rw [hb]
    show appendDigit m b = _
    rw [appendDigit, hcode, Nat.mul_comm]
    rfl
  · omega

theorem valueFrom_text (cs : List Char) (h : ∀ c ∈ cs, c.isDigit) (m : Nat) :
    valueFrom m (cs.flatMap String.utf8EncodeChar) = Nat.ofDigitChars 10 cs m := by
  induction cs generalizing m with
  | nil => rfl
  | cons c cs ih =>
    obtain ⟨hc, hcs⟩ := List.forall_mem_cons.mp h
    rw [List.flatMap_cons, valueFrom, List.foldl_append, Nat.ofDigitChars_cons, ← ih hcs,
      ← valueFrom_utf8EncodeChar hc m]
    rfl

theorem flatMap_utf8EncodeChar_eq_nil {cs : List Char} :
    cs.flatMap String.utf8EncodeChar = [] ↔ cs = [] := by
  cases cs <;> simp [String.utf8EncodeChar_ne_nil]

/-- Characters denote a number: they are one or more ASCII digits, and it is their number. -/
def Denote (digits : List Char) (n : Nat) : Prop :=
  digits ≠ [] ∧ (∀ c ∈ digits, c.isDigit) ∧ n = Nat.ofDigitChars 10 digits 0

/-- A text is read as digits exactly if its characters denote a number that is not too large. -/
theorem readDigits_text {cs : List Char} (h : cs ≠ []) {n : Nat} :
    readDigits 0 (cs.flatMap String.utf8EncodeChar) = .ok n ↔ Denote cs n ∧ n ≤ maxInterval := by
  have hdigits : (∀ b ∈ cs.flatMap String.utf8EncodeChar, IsDigit b) ↔ ∀ c ∈ cs, c.isDigit := by
    rw [List.forall_mem_flatMap]
    exact forall_congr' fun c => imp_congr_right fun _ => forall_isDigit_utf8EncodeChar c
  rw [readDigits_eq_ok_iff, hdigits, ne_eq, flatMap_utf8EncodeChar_eq_nil]
  constructor
  · rintro ⟨hall, hn, hmax⟩
    rw [valueFrom_text cs hall] at hn
    exact ⟨⟨h, hall, hn⟩, hmax h⟩
  · rintro ⟨⟨-, hall, hn⟩, hmax⟩
    exact ⟨hall, hn.trans (valueFrom_text cs hall 0).symm, fun _ => hmax⟩

/-! ## Texts that write a number -/

/-- A text writes a number: it is digits that denote it, perhaps behind one plus sign. -/
def Writes (v : String) (n : Nat) : Prop :=
  ∃ digits, (v.toList = digits ∨ v.toList = '+' :: digits) ∧ Denote digits n

/-- A text writes an interval: a positive number of 64 bits. -/
def WritesInterval (v : String) (n : Nat) : Prop := Writes v n ∧ 1 ≤ n ∧ n < UInt64.size

section Writes

variable {v : String} {n : Nat}

theorem not_denote_plus (cs : List Char) : ¬ Denote ('+' :: cs) n := fun h =>
  absurd (h.2.1 '+' (List.mem_cons_self ..)) (by decide)

/-- Behind a plus sign stand the digits. -/
theorem writes_plus {cs : List Char} (h : v.toList = '+' :: cs) : Writes v n ↔ Denote cs n := by
  constructor
  · rintro ⟨digits, hv | hv, hdigits⟩
    · rw [← hv, h] at hdigits
      exact absurd hdigits (not_denote_plus cs)
    · obtain rfl := (List.cons.inj (h.symm.trans hv)).2
      exact hdigits
  · exact fun hdigits => ⟨cs, Or.inr h, hdigits⟩

/-- Without a plus sign all characters are the digits. -/
theorem writes_plain (h : v.toList.head? ≠ some '+') : Writes v n ↔ Denote v.toList n := by
  constructor
  · rintro ⟨digits, hv | hv, hdigits⟩
    · rw [hv]
      exact hdigits
    · exact absurd (congrArg List.head? hv) h
  · exact fun hdigits => ⟨v.toList, Or.inl rfl, hdigits⟩

theorem readNumber_plus {cs : List Char} :
    readNumber (('+' :: cs).flatMap String.utf8EncodeChar) = .ok n ↔
      Denote cs n ∧ n ≤ maxInterval := by
  show readNumber (43 :: cs.flatMap String.utf8EncodeChar) = .ok n ↔ _
  by_cases hcs : cs = []
  · -- a plus sign alone is no digit
    subst hcs
    exact ⟨fun h => absurd h (by simp [readNumber, readDigits, digit?]), fun h => absurd rfl h.1.1⟩
  · have hne : cs.flatMap String.utf8EncodeChar ≠ [] :=
      fun h => hcs (flatMap_utf8EncodeChar_eq_nil.mp h)
    rw [readNumber, if_pos ⟨rfl, hne⟩]
    exact readDigits_text hcs

theorem readNumber_plain {c : Char} {cs : List Char} (h : c ≠ '+') :
    readNumber ((c :: cs).flatMap String.utf8EncodeChar) = .ok n ↔
      Denote (c :: cs) n ∧ n ≤ maxInterval := by
  rw [← readDigits_text (List.cons_ne_nil c cs), List.flatMap_cons]
  cases hbytes : String.utf8EncodeChar c with
  | nil => exact absurd hbytes String.utf8EncodeChar_ne_nil
  | cons b rest =>
    -- no other character is encoded with the byte of a plus sign
    have hplus : b.toNat = '+'.toNat ↔ c = '+' := utf8EncodeChar_head_iff (by decide) hbytes
    rw [List.cons_append, readNumber, if_neg fun hb => h (hplus.mp (congrArg UInt8.toNat hb.1))]

/-- A number is read from the texts that write it, unless it is too large. -/
theorem readNumber_text : readNumber (Bytes.ofString v) = .ok n ↔ Writes v n ∧ n ≤ maxInterval := by
  rw [Bytes.ofString_eq_flatMap]
  cases hv : v.toList with
  | nil =>
    rw [writes_plain (by simp [hv]), hv]
    exact ⟨fun h => absurd h (by simp [readNumber]), fun h => absurd rfl h.1.1⟩
  | cons c cs =>
    by_cases hc : c = '+'
    · subst hc
      rw [readNumber_plus, writes_plus hv]
    · have hplain : v.toList.head? ≠ some '+' := by
        rw [hv]
        exact fun h => hc (Option.some.inj h)
      rw [readNumber_plain hc, writes_plain hplain, hv]

/-- The number is looked at once more, for zero. -/
theorem readInterval_eq_ok_iff {w : Bytes} :
    readInterval w = .ok n ↔ readNumber w = .ok n ∧ 1 ≤ n := by
  unfold readInterval
  split
  next hzero =>
    rw [hzero]
    refine ⟨fun h => absurd h (by simp), ?_⟩
    rintro ⟨h, hpos⟩
    rw [← Except.ok.inj h] at hpos
    exact absurd hpos (by decide)
  next hzero =>
    refine ⟨fun h => ⟨h, ?_⟩, And.left⟩
    exact Nat.pos_of_ne_zero fun hn => hzero (hn ▸ h)

/-- **An interval is read from exactly the texts that write it.** -/
theorem readInterval_text : readInterval (Bytes.ofString v) = .ok n ↔ WritesInterval v n := by
  have hbits : n ≤ maxInterval ↔ n < UInt64.size := Nat.lt_succ_iff.symm
  rw [readInterval_eq_ok_iff, readNumber_text, hbits, and_assoc, and_comm (a := n < UInt64.size)]
  exact Iff.rfl

end Writes

end PollWatch.CommandLine
