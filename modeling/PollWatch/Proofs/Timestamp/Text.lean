import Mathlib
import PollWatch.Proofs.Timestamp.Newest

/-!
# What the text of a timestamp tells

Whole seconds stand before the point and exactly nine digits behind it, so no zero is lost and
nothing is carried from one part to the other. Read back, the text gives the timestamp:

> `text_identifies`: a system time is a timestamp unless it lies before the epoch, and timestamps
> are ordered as their times; the text of a timestamp is its whole seconds in decimal, a point, and
> nine digits, which together give the timestamp back; so timestamps with the same text are the
> same, and those with seconds of one length are ordered as their texts.

Texts are compared character by character. Digits of one length are so compared as the numbers
that they denote (`lt_iff_ofDigitChars_lt`), and parts one after the other
(`append_lt_append_iff`).
-/

namespace PollWatch.Timestamp

/-! ## Digits in order -/

/-- The first digit counts for as many places as follow it. -/
theorem ofDigitChars_cons_eq (c : Char) (cs : List Char) :
    Nat.ofDigitChars 10 (c :: cs) 0
      = 10 ^ cs.length * (c.toNat - '0'.toNat) + Nat.ofDigitChars 10 cs 0 := by
  rw [Nat.ofDigitChars_cons, Nat.ofDigitChars_eq_ofDigitChars_zero, Nat.mul_zero, Nat.zero_add]

/-- The number that digits denote has no more digits than they are. -/
theorem ofDigitChars_lt {ds : List Char} (h : ∀ c ∈ ds, c.isDigit) :
    Nat.ofDigitChars 10 ds 0 < 10 ^ ds.length := by
  induction ds with
  | nil => exact Nat.one_pos
  | cons c ds ih =>
    obtain ⟨hc, hds⟩ := List.forall_mem_cons.mp h
    have hlast := ih hds
    have hnine : c.toNat - '0'.toNat ≤ 9 := by
      have hle : c.toNat ≤ '9'.toNat := (Char.isDigit_iff_toNat.mp hc).2
      exact Nat.sub_le_of_le_add hle
    have hfirst : 10 ^ ds.length * (c.toNat - '0'.toNat) ≤ 10 ^ ds.length * 9 :=
      Nat.mul_le_mul_left _ hnine
    rw [ofDigitChars_cons_eq, List.length_cons, Nat.pow_succ]
    omega

/-- The first of two digits decides, in whatever base. -/
theorem mul_add_lt_mul_add_iff {base m n d e : Nat} (hd : d < base) (he : e < base) :
    base * m + d < base * n + e ↔ m < n ∨ m = n ∧ d < e := by
  rcases Nat.lt_trichotomy m n with hlt | rfl | hgt
  · have hle : base * (m + 1) ≤ base * n := Nat.mul_le_mul_left base hlt
    rw [Nat.mul_succ] at hle
    omega
  · omega
  · have hle : base * (n + 1) ≤ base * m := Nat.mul_le_mul_left base hgt
    rw [Nat.mul_succ] at hle
    omega

/-- **Digits of one length are ordered as the numbers that they denote.** -/
theorem lt_iff_ofDigitChars_lt {as bs : List Char} (hlength : as.length = bs.length)
    (has : ∀ c ∈ as, c.isDigit) (hbs : ∀ c ∈ bs, c.isDigit) :
    as < bs ↔ Nat.ofDigitChars 10 as 0 < Nat.ofDigitChars 10 bs 0 := by
  induction as generalizing bs with
  | nil =>
    rw [List.eq_nil_of_length_eq_zero hlength.symm]
    exact ⟨fun h => absurd h (List.lt_irrefl []), fun h => absurd h (Nat.lt_irrefl _)⟩
  | cons a as ih =>
    cases bs with
    | nil => exact absurd hlength (by simp)
    | cons b bs =>
      obtain ⟨ha, has⟩ := List.forall_mem_cons.mp has
      obtain ⟨hb, hbs⟩ := List.forall_mem_cons.mp hbs
      have hlength : as.length = bs.length := Nat.succ.inj hlength
      have hzero : ∀ c : Char, c.isDigit → '0'.toNat ≤ c.toNat := fun c hc =>
        (Char.isDigit_iff_toNat.mp hc).1
      have hdigit : a < b ↔ a.toNat - '0'.toNat < b.toNat - '0'.toNat :=
        (Nat.sub_lt_sub_iff_right (hzero a ha)).symm
      have hsame : a = b ↔ a.toNat - '0'.toNat = b.toNat - '0'.toNat := by
        have ha := hzero a ha
        have hb := hzero b hb
        rw [← Char.toNat_inj]
        omega
      -- what follows the first digits is too small to make up for them
      have hbound := ofDigitChars_lt has
      rw [hlength] at hbound
      rw [List.cons_lt_cons_iff, ih hlength has hbs, hdigit, hsame, ofDigitChars_cons_eq,
        ofDigitChars_cons_eq, hlength]
      exact (mul_add_lt_mul_add_iff hbound (ofDigitChars_lt hbs)).symm

/-- What stands first decides, if it is of one length. -/
theorem append_lt_append_iff {as bs cs ds : List Char} (hlength : as.length = bs.length) :
    as ++ cs < bs ++ ds ↔ as < bs ∨ as = bs ∧ cs < ds := by
  induction as generalizing bs with
  | nil =>
    rw [List.eq_nil_of_length_eq_zero hlength.symm]
    simp
  | cons a as ih =>
    cases bs with
    | nil => exact absurd hlength (by simp)
    | cons b bs =>
      rw [List.cons_append, List.cons_append, List.cons_lt_cons_iff, List.cons_lt_cons_iff,
        ih (Nat.succ.inj hlength), List.cons.injEq, and_or_left, or_assoc, and_assoc]

/-! ## The last digits -/

theorem length_lastDigits (width n : Nat) : (lastDigits width n).length = width := by
  induction width generalizing n with
  | zero => rfl
  | succ width ih => rw [lastDigits, List.length_append, ih, List.length_singleton]

theorem isDigit_of_mem_lastDigits {width n : Nat} {c : Char} (h : c ∈ lastDigits width n) :
    c.isDigit := by
  induction width generalizing n with
  | zero => exact absurd h List.not_mem_nil
  | succ width ih =>
    rw [lastDigits, List.mem_append, List.mem_singleton] at h
    rcases h with h | rfl
    · exact ih h
    · rw [Nat.isDigit_digitChar, decide_eq_true_iff]
      exact Nat.mod_lt n (by decide)

/-- The last digits denote what is left of the number. -/
theorem ofDigitChars_lastDigits (width n : Nat) :
    Nat.ofDigitChars 10 (lastDigits width n) 0 = n % 10 ^ width := by
  induction width generalizing n with
  | zero => exact (Nat.mod_one n).symm
  | succ width ih =>
    have hdigit : n % 10 < 10 := Nat.mod_lt n (by decide)
    rw [lastDigits, Nat.ofDigitChars_append, ih, Nat.ofDigitChars_cons_digitChar_of_lt_ten hdigit,
      Nat.ofDigitChars_nil, Nat.pow_succ, Nat.mul_comm (10 ^ width), Nat.mod_mul, Nat.add_comm]

/-! ## The parts of a text -/

/-- The part of a text before its first point. -/
def secondsPart (s : String) : List Char := s.toList.takeWhile (· != '.')

/-- The part of a text behind its first point. -/
def fractionPart (s : String) : List Char := (s.toList.dropWhile (· != '.')).drop 1

/-- The nanoseconds that a text denotes. -/
def readText (s : String) : Nat :=
  Nat.ofDigitChars 10 (secondsPart s) 0 * perSecond + Nat.ofDigitChars 10 (fractionPart s) 0

theorem toList_text (t : Timestamp) : t.text.toList = t.chars := String.toList_ofList

theorem ne_point_of_mem_toDigits {n : Nat} {c : Char} (h : c ∈ Nat.toDigits 10 n) :
    (c != '.') = true := by
  have hdigit := Nat.isDigit_of_mem_toDigits (by decide) (by decide) h
  rw [bne_iff_ne]
  rintro rfl
  exact absurd hdigit (by decide)

theorem secondsPart_text (t : Timestamp) :
    secondsPart t.text = Nat.toDigits 10 (t.nanos / perSecond) := by
  rw [secondsPart, toList_text, chars,
    List.takeWhile_append_of_pos fun c => ne_point_of_mem_toDigits, List.takeWhile_cons_of_neg]
  · exact List.append_nil _
  · decide

theorem fractionPart_text (t : Timestamp) :
    fractionPart t.text = lastDigits 9 (t.nanos % perSecond) := by
  rw [fractionPart, toList_text, chars,
    List.dropWhile_append_of_pos fun c => ne_point_of_mem_toDigits, List.dropWhile_cons_of_neg]
  · rfl
  · decide

/-- **The text of a timestamp is read back.** -/
theorem readText_text (t : Timestamp) : readText t.text = t.nanos := by
  have hseconds : Nat.ofDigitChars 10 (secondsPart t.text) 0 = t.nanos / perSecond := by
    rw [secondsPart_text]
    exact Nat.ofDigitChars_toDigits (by decide) (by decide)
  have hfraction : Nat.ofDigitChars 10 (fractionPart t.text) 0 = t.nanos % perSecond := by
    rw [fractionPart_text, ofDigitChars_lastDigits]
    exact Nat.mod_mod t.nanos perSecond
  rw [readText, hseconds, hfraction, Nat.mul_comm]
  exact Nat.div_add_mod t.nanos perSecond

/-! ## The order of texts -/

theorem secondsPart_eq_iff {s t : Timestamp} :
    secondsPart s.text = secondsPart t.text ↔ s.nanos / perSecond = t.nanos / perSecond := by
  rw [secondsPart_text, secondsPart_text]
  constructor
  · intro h
    have hvalue := congrArg (Nat.ofDigitChars 10 · 0) h
    simpa [Nat.ofDigitChars_toDigits] using hvalue
  · intro h
    rw [h]

theorem secondsPart_lt_iff {s t : Timestamp}
    (h : (secondsPart s.text).length = (secondsPart t.text).length) :
    secondsPart s.text < secondsPart t.text ↔ s.nanos / perSecond < t.nanos / perSecond := by
  have hdigits : ∀ n, ∀ c ∈ Nat.toDigits 10 n, c.isDigit := fun n c =>
    Nat.isDigit_of_mem_toDigits (by decide) (by decide)
  rw [secondsPart_text, secondsPart_text] at h ⊢
  rw [lt_iff_ofDigitChars_lt h (hdigits _) (hdigits _), Nat.ofDigitChars_toDigits (by decide)
    (by decide), Nat.ofDigitChars_toDigits (by decide) (by decide)]

theorem fractionPart_lt_iff {s t : Timestamp} :
    fractionPart s.text < fractionPart t.text ↔ s.nanos % perSecond < t.nanos % perSecond := by
  -- less than a second fits into nine digits
  have hvalue : ∀ n, Nat.ofDigitChars 10 (lastDigits 9 (n % perSecond)) 0 = n % perSecond :=
    fun n => (ofDigitChars_lastDigits 9 _).trans (Nat.mod_mod n perSecond)
  rw [fractionPart_text, fractionPart_text, lt_iff_ofDigitChars_lt, hvalue, hvalue]
  · rw [length_lastDigits, length_lastDigits]
  · exact fun c => isDigit_of_mem_lastDigits
  · exact fun c => isDigit_of_mem_lastDigits

theorem toList_text_eq (t : Timestamp) :
    t.text.toList = secondsPart t.text ++ '.' :: fractionPart t.text := by
  rw [secondsPart_text, fractionPart_text]
  exact toList_text t

/-- **Texts are ordered as their timestamps**, if the seconds are of one length. -/
theorem text_lt_text_iff {s t : Timestamp}
    (h : (secondsPart s.text).length = (secondsPart t.text).length) :
    s.text < t.text ↔ s < t := by
  -- the points meet, because the seconds are of one length
  have hpoint : '.' :: fractionPart s.text < '.' :: fractionPart t.text ↔
      fractionPart s.text < fractionPart t.text := by
    rw [List.cons_lt_cons_iff]
    simp
  have hfraction : ∀ u : Timestamp, u.nanos % perSecond < perSecond := fun u =>
    Nat.mod_lt _ (by decide)
  have hnanos : s.nanos < t.nanos ↔ s.nanos / perSecond < t.nanos / perSecond ∨
      s.nanos / perSecond = t.nanos / perSecond ∧ s.nanos % perSecond < t.nanos % perSecond := by
    rw [← mul_add_lt_mul_add_iff (hfraction s) (hfraction t), Nat.div_add_mod, Nat.div_add_mod]
  show s.text.toList < t.text.toList ↔ s.nanos < t.nanos
  rw [toList_text_eq, toList_text_eq, append_lt_append_iff h, hpoint, secondsPart_lt_iff h,
    secondsPart_eq_iff, fractionPart_lt_iff, hnanos]

/-! ## Times, timestamps and texts -/

/-- **Timestamps keep the order of times, and their text identifies them.** Exactly the times
before the epoch give no timestamp; the others are equal, or one before the other, exactly if their
timestamps are. The text of a timestamp is its whole seconds in decimal, a point, and nine digits,
and is read back as that timestamp; so timestamps with the same text are the same, and where the
seconds are of one length, the texts are ordered as the timestamps. -/
theorem text_identifies (i j : Instant) (s t : Timestamp) :
    (ofInstant? i = none ↔ i < 0) ∧
    (ofInstant? i = some s → ofInstant? j = some t →
      (s = t ↔ i = j) ∧ (s < t ↔ i < j) ∧ (s ≤ t ↔ i ≤ j)) ∧
    (t.text.toList = secondsPart t.text ++ '.' :: fractionPart t.text ∧
      secondsPart t.text = (toString (t.nanos / perSecond)).toList ∧
      (fractionPart t.text).length = 9 ∧ (∀ c ∈ fractionPart t.text, c.isDigit) ∧
      readText t.text = t.nanos) ∧
    (s.text = t.text ↔ s = t) ∧
    ((secondsPart s.text).length = (secondsPart t.text).length → (s.text < t.text ↔ s < t)) := by
  refine ⟨ofInstant?_eq_none_iff, ?order, ⟨toList_text_eq t, ?seconds, ?length, ?digits,
    readText_text t⟩, ?same, text_lt_text_iff⟩
  case order =>
    intro hi hj
    rw [ofInstant?_eq_some_iff.mp hi, ofInstant?_eq_some_iff.mp hj]
    have hsame : s = t ↔ s.nanos = t.nanos := ⟨congrArg nanos, ext_nanos⟩
    exact ⟨hsame.trans Int.ofNat_inj.symm, Int.ofNat_lt.symm, Int.ofNat_le.symm⟩
  case seconds =>
    rw [secondsPart_text]
    exact Nat.toList_repr.symm
  case length => rw [fractionPart_text, length_lastDigits]
  case digits =>
    rw [fractionPart_text]
    exact fun c => isDigit_of_mem_lastDigits
  case same =>
    constructor
    · intro h
      have hread := congrArg readText h
      rw [readText_text, readText_text] at hread
      exact ext_nanos hread
    · intro h
      rw [h]

/-- One nanosecond before a full second, and the second. -/
theorem text_identifies_second :
    ofInstant? 1999999999 = some ⟨1999999999⟩ ∧ ofInstant? 2000000000 = some ⟨2000000000⟩ ∧
      (⟨1999999999⟩ : Timestamp) < ⟨2000000000⟩ ∧
      text ⟨1999999999⟩ = "1.999999999" ∧ text ⟨2000000000⟩ = "2.000000000" ∧
      text ⟨1999999999⟩ < text ⟨2000000000⟩ := by
  have htells := text_identifies 1999999999 2000000000 ⟨1999999999⟩ ⟨2000000000⟩
  obtain ⟨-, horder, -, -, htexts⟩ := htells
  have hlt : (⟨1999999999⟩ : Timestamp) < ⟨2000000000⟩ := (horder rfl rfl).2.1.mpr (by decide)
  have hlength : (secondsPart (text ⟨1999999999⟩)).length
      = (secondsPart (text ⟨2000000000⟩)).length := by
    rw [secondsPart_text, secondsPart_text]
    rfl
  exact ⟨rfl, rfl, hlt, by decide, by decide, (htexts hlength).mpr hlt⟩

end PollWatch.Timestamp
