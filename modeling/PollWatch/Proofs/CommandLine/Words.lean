import PollWatch.CommandLine.Token

/-!
# How the words of a command line are spelled

A kind of word is computed by looking at its bytes. The kinds are described here the
other way round, by their spellings, and the two agree:

> `ofWord_eq_named_iff`: a word is an option, perhaps with a value, exactly if it is two
> hyphens, the name, and `=` with the value;
> `ofWord_eq_operand_iff`: it is an operand exactly if it is spelled like nothing else.

What carries both is that cutting at `=` undoes putting a value behind a name
(`splitValue_joinValue`), as no option has a `=` in its name.
-/

namespace PollWatch.CommandLine

/-! ## Names and values -/

/-- A name, with `=` and a value behind it if there is one. -/
def joinValue (name : Bytes) : Option Bytes → Bytes
  | none => name
  | some value => name ++ 61 :: value

theorem joinValue_cons (c : UInt8) (name : Bytes) (value? : Option Bytes) :
    joinValue (c :: name) value? = c :: joinValue name value? := by
  cases value? <;> rfl

theorem joinValue_splitValue (b : Bytes) : joinValue (splitValue b).1 (splitValue b).2 = b := by
  induction b with
  | nil => rfl
  | cons c b ih =>
    unfold splitValue
    split
    next hc =>
      rw [hc]
      rfl
    next =>
      rw [joinValue_cons]
      exact congrArg (c :: ·) ih

theorem splitValue_joinValue {name : Bytes} (h : 61 ∉ name) (value? : Option Bytes) :
    splitValue (joinValue name value?) = (name, value?) := by
  induction name with
  | nil =>
    cases value? with
    | none => rfl
    | some value => exact if_pos rfl
  | cons c name ih =>
    have hc : c ≠ 61 := by
      rintro rfl
      exact h (List.mem_cons_self ..)
    have hrest := ih fun hmem => h (List.mem_cons_of_mem _ hmem)
    rw [joinValue_cons, splitValue, if_neg hc, hrest]

/-- The name that is cut off before `=` holds none. -/
theorem not_mem_splitValue (b : Bytes) : 61 ∉ (splitValue b).1 := by
  induction b with
  | nil => exact List.not_mem_nil
  | cons c b ih =>
    unfold splitValue
    split
    next => exact List.not_mem_nil
    next hc =>
      intro hmem
      rcases List.mem_cons.mp hmem with h | h
      · exact hc h.symm
      · exact ih h

/-! ## Options -/

namespace OptionName

/-- The spelling of an option, with `=` and a value behind it if there is one. -/
def spelled (o : OptionName) (value? : Option Bytes) : Bytes :=
  hyphen :: hyphen :: joinValue (Bytes.ofString o.word) value?

theorem ofBytes?_eq_some_iff {b : Bytes} {o : OptionName} :
    ofBytes? b = some o ↔ Bytes.ofString o.word = b := by
  constructor
  · intro h
    simpa using List.find?_some h
  · rintro rfl
    cases o <;> decide +kernel

theorem not_mem_word (o : OptionName) : 61 ∉ Bytes.ofString o.word := by
  cases o <;> decide +kernel

theorem word_ne_nil (o : OptionName) : Bytes.ofString o.word ≠ [] := by
  cases o <;> decide +kernel

end OptionName

/-! ## Kinds of words -/

namespace Token

/-- What two hyphens can begin: the separator, a name that is no text, an option, or an
operand. -/
theorem ofLong_cases (b : Bytes) :
    (b = [] ∧ ofLong b = .separator) ∨
      (Bytes.text? (splitValue b).1 = none ∧ ofLong b = .unreadable (splitValue b).1) ∨
        (∃ o, Bytes.ofString o.word = (splitValue b).1 ∧ ofLong b = .named o (splitValue b).2) ∨
          ofLong b = .operand := by
  unfold ofLong
  split
  next hnil => exact Or.inl ⟨hnil, rfl⟩
  next =>
    split
    next hnone => exact Or.inr (Or.inl ⟨Option.isNone_iff_eq_none.mp hnone, rfl⟩)
    next =>
      split
      next o ho =>
        exact Or.inr (Or.inr (Or.inl ⟨o, OptionName.ofBytes?_eq_some_iff.mp ho, rfl⟩))
      next => exact Or.inr (Or.inr (Or.inr rfl))

theorem ofLong_ne_short (b : Bytes) (o : OptionName) : ofLong b ≠ .short o := by
  rcases ofLong_cases b with ⟨-, h⟩ | ⟨-, h⟩ | ⟨_, -, h⟩ | h <;> rw [h] <;> simp

theorem ofLong_eq_separator_iff {b : Bytes} : ofLong b = .separator ↔ b = [] := by
  constructor
  · intro hb
    rcases ofLong_cases b with ⟨hnil, -⟩ | ⟨-, h⟩ | ⟨_, -, h⟩ | h
    · exact hnil
    all_goals exact absurd (hb.symm.trans h) (by simp)
  · rintro rfl
    rfl

theorem ofLong_eq_named_iff {b : Bytes} {o : OptionName} {value? : Option Bytes} :
    ofLong b = .named o value? ↔ b = joinValue (Bytes.ofString o.word) value? := by
  constructor
  · intro hb
    rcases ofLong_cases b with ⟨-, h⟩ | ⟨-, h⟩ | ⟨o', ho', h⟩ | h
    · exact absurd (hb.symm.trans h) (by simp)
    · exact absurd (hb.symm.trans h) (by simp)
    · obtain ⟨rfl, rfl⟩ := Token.named.inj (hb.symm.trans h)
      rw [ho', joinValue_splitValue]
    · exact absurd (hb.symm.trans h) (by simp)
  · rintro rfl
    -- so the word is not the separator
    have hne : joinValue (Bytes.ofString o.word) value? ≠ [] := by
      intro h
      have hsplit := splitValue_joinValue o.not_mem_word value?
      rw [h] at hsplit
      exact o.word_ne_nil (congrArg Prod.fst hsplit).symm
    unfold ofLong
    rw [if_neg hne, splitValue_joinValue o.not_mem_word, Bytes.text?_ofString,
      OptionName.ofBytes?_eq_some_iff.mpr rfl]
    rfl

/-- A name is unreadable if it is no text, whatever value stands behind it. -/
theorem ofLong_eq_unreadable_iff {b name : Bytes} :
    ofLong b = .unreadable name ↔
      61 ∉ name ∧ Bytes.text? name = none ∧ ∃ value?, b = joinValue name value? := by
  constructor
  · intro hb
    rcases ofLong_cases b with ⟨-, h⟩ | ⟨hnone, h⟩ | ⟨_, -, h⟩ | h
    · exact absurd (hb.symm.trans h) (by simp)
    · obtain rfl := Token.unreadable.inj (hb.symm.trans h)
      exact ⟨not_mem_splitValue b, hnone, (splitValue b).2, (joinValue_splitValue b).symm⟩
    · exact absurd (hb.symm.trans h) (by simp)
    · exact absurd (hb.symm.trans h) (by simp)
  · rintro ⟨hname, hnone, value?, rfl⟩
    have hne : joinValue name value? ≠ [] := by
      intro h
      have hsplit := splitValue_joinValue hname value?
      rw [h] at hsplit
      -- the empty name is a text
      rw [← show [] = name from congrArg Prod.fst hsplit] at hnone
      exact absurd (hnone.symm.trans (Bytes.text?_ofString "")) (by simp)
    unfold ofLong
    rw [if_neg hne, splitValue_joinValue hname, hnone]
    rfl

theorem isSome_shortOption?_iff {b : UInt8} : (shortOption? b).isSome ↔ b = 104 ∨ b = 86 := by
  unfold shortOption?
  split
  next h => simp [h]
  next h =>
    split
    next h' => simp [h']
    next h' => simp [h, h']

theorem isSome_mapM_shortOption?_iff {letters : Bytes} :
    (letters.mapM shortOption?).isSome ↔ ∀ b ∈ letters, b = 104 ∨ b = 86 := by
  induction letters with
  | nil => simp
  | cons b letters ih =>
    rw [List.forall_mem_cons, ← ih, ← isSome_shortOption?_iff, List.mapM_cons]
    cases shortOption? b <;> cases letters.mapM shortOption? <;> simp

/-- Letters are a group of short options if each of them is one; else the word is an operand. -/
theorem ofShort_cases {letters : Bytes} (hne : letters ≠ []) :
    (∃ o, ofShort letters = .short o ∧ (o = .help ∨ o = .version)) ∧
        (∀ b ∈ letters, b = 104 ∨ b = 86) ∨
      ofShort letters = .operand ∧ ¬ ∀ b ∈ letters, b = 104 ∨ b = 86 := by
  rw [← isSome_mapM_shortOption?_iff]
  unfold ofShort
  cases letters with
  | nil => exact absurd rfl hne
  | cons b letters =>
    rw [List.mapM_cons]
    cases hb : shortOption? b with
    | none => simp
    | some o =>
      have ho : o = .help ∨ o = .version := by
        unfold shortOption? at hb
        grind
      cases letters.mapM shortOption? with
      | none => simp
      | some os => exact Or.inl ⟨⟨o, rfl, ho⟩, rfl⟩

/-- Two hyphens, one hyphen, or none decide how a word is looked at. -/
theorem ofWord_cases (w : Bytes) :
    (∃ b, w = hyphen :: hyphen :: b) ∨
      (∃ letters, letters ≠ [] ∧ w = hyphen :: letters ∧ ofWord w = ofShort letters) ∨
        ofWord w = .operand ∧ ∀ letters, letters ≠ [] → w ≠ hyphen :: letters := by
  match w with
  | [] => exact Or.inr (Or.inr ⟨rfl, by simp⟩)
  | [a] =>
    refine Or.inr (Or.inr ⟨rfl, fun letters hne h => hne ?_⟩)
    exact (List.cons.inj h).2.symm
  | a :: b :: rest =>
    by_cases ha : a = hyphen
    · subst ha
      by_cases hb : b = hyphen
      · subst hb
        exact Or.inl ⟨rest, rfl⟩
      · have hw : ofWord (hyphen :: b :: rest) = ofShort (b :: rest) := by
          simp only [ofWord, if_neg hb, reduceIte]
        exact Or.inr (Or.inl ⟨b :: rest, by simp, rfl, hw⟩)
    · have hw : ofWord (a :: b :: rest) = .operand := if_neg ha
      exact Or.inr (Or.inr ⟨hw, fun letters _ h => ha (List.cons.inj h).1⟩)

theorem ofShort_ne {letters : Bytes} {k : Token} (hshort : ∀ o, k ≠ .short o)
    (hoperand : k ≠ .operand) : ofShort letters ≠ k := by
  unfold ofShort
  split
  next o _ _ => exact fun h => hshort o h.symm
  next => exact fun h => hoperand h.symm

/-- All kinds but the short options and the operands begin with two hyphens. -/
theorem ofWord_eq_iff_ofLong {w : Bytes} {k : Token} (hshort : ∀ o, k ≠ .short o)
    (hoperand : k ≠ .operand) :
    ofWord w = k ↔ ∃ b, w = hyphen :: hyphen :: b ∧ ofLong b = k := by
  constructor
  · intro h
    rcases ofWord_cases w with ⟨b, rfl⟩ | ⟨letters, _, -, hw⟩ | ⟨hw, -⟩
    · exact ⟨b, rfl, h⟩
    · exact absurd (hw.symm.trans h) (ofShort_ne hshort hoperand)
    · exact absurd (hw.symm.trans h).symm hoperand
  · rintro ⟨b, rfl, hb⟩
    exact hb

end Token

/-- The word `--`. -/
def separatorWord : Bytes := [hyphen, hyphen]

/-- A hyphen with short options behind it. -/
def IsShortGroup (w : Bytes) : Prop :=
  ∃ letters, letters ≠ [] ∧ w = hyphen :: letters ∧ ∀ b ∈ letters, b = 104 ∨ b = 86

/-- Two hyphens and a name that is no text, perhaps with a value. -/
def IsUnreadable (w : Bytes) : Prop :=
  ∃ name value?, 61 ∉ name ∧ Bytes.text? name = none ∧ w = hyphen :: hyphen :: joinValue name value?

/-- A word that is spelled like an operand, and like nothing else: it is neither the separator nor
one of the options, long or short, and an option's name that is no text it is not either. -/
structure IsOperand (w : Bytes) : Prop where
  not_separator : w ≠ separatorWord
  not_option : ∀ o value?, w ≠ OptionName.spelled o value?
  not_short : ¬ IsShortGroup w
  readable : ¬ IsUnreadable w

namespace Token

theorem ofWord_eq_separator_iff {w : Bytes} : ofWord w = .separator ↔ w = separatorWord := by
  rw [ofWord_eq_iff_ofLong (by simp) (by simp)]
  constructor
  · rintro ⟨b, rfl, hb⟩
    rw [ofLong_eq_separator_iff.mp hb]
    rfl
  · rintro rfl
    exact ⟨[], rfl, rfl⟩

theorem ofWord_eq_named_iff {w : Bytes} {o : OptionName} {value? : Option Bytes} :
    ofWord w = .named o value? ↔ w = o.spelled value? := by
  rw [ofWord_eq_iff_ofLong (by simp) (by simp)]
  constructor
  · rintro ⟨b, rfl, hb⟩
    rw [ofLong_eq_named_iff.mp hb]
    rfl
  · rintro rfl
    exact ⟨_, rfl, ofLong_eq_named_iff.mpr rfl⟩

@[simp]
theorem ofWord_spelled (o : OptionName) (value? : Option Bytes) :
    ofWord (o.spelled value?) = .named o value? :=
  ofWord_eq_named_iff.mpr rfl

theorem exists_ofWord_eq_unreadable_iff {w : Bytes} :
    (∃ name, ofWord w = .unreadable name) ↔ IsUnreadable w := by
  constructor
  · rintro ⟨name, h⟩
    obtain ⟨b, rfl, hb⟩ := (ofWord_eq_iff_ofLong (by simp) (by simp)).mp h
    obtain ⟨hname, hnone, value?, rfl⟩ := ofLong_eq_unreadable_iff.mp hb
    exact ⟨name, value?, hname, hnone, rfl⟩
  · rintro ⟨name, value?, hname, hnone, rfl⟩
    exact ⟨name, ofLong_eq_unreadable_iff.mpr ⟨hname, hnone, value?, rfl⟩⟩

theorem exists_ofWord_eq_short_iff {w : Bytes} : (∃ o, ofWord w = .short o) ↔ IsShortGroup w := by
  rcases ofWord_cases w with ⟨b, rfl⟩ | ⟨letters, hne, rfl, hw⟩ | ⟨hw, hnot⟩
  · -- a hyphen is no short option
    constructor
    · rintro ⟨o, h⟩
      exact absurd h (ofLong_ne_short b o)
    · rintro ⟨letters, -, h, hall⟩
      obtain rfl := (List.cons.inj h).2
      exact absurd (hall hyphen (List.mem_cons_self ..)) (by decide)
  · rw [hw]
    rcases ofShort_cases hne with ⟨hshort, hall⟩ | ⟨hoperand, hall⟩
    · obtain ⟨o, ho, -⟩ := hshort
      exact ⟨fun _ => ⟨letters, hne, rfl, hall⟩, fun _ => ⟨o, ho⟩⟩
    · rw [hoperand]
      constructor
      · rintro ⟨o, h⟩
        exact absurd h (by simp)
      · rintro ⟨letters', -, h, hall'⟩
        obtain rfl := (List.cons.inj h).2
        exact absurd hall' hall
  · rw [hw]
    constructor
    · rintro ⟨o, h⟩
      exact absurd h (by simp)
    · rintro ⟨letters, hne, h, -⟩
      exact absurd h (hnot letters hne)

/-- Short options ask for the help or the version. -/
theorem help_or_version_of_short {w : Bytes} {o : OptionName} (h : ofWord w = .short o) :
    o = .help ∨ o = .version := by
  rcases ofWord_cases w with ⟨b, rfl⟩ | ⟨letters, hne, -, hw⟩ | ⟨hw, -⟩
  · exact absurd h (ofLong_ne_short b o)
  · rcases ofShort_cases hne with ⟨⟨o', ho', hasks⟩, -⟩ | ⟨hoperand, -⟩
    · obtain rfl := Token.short.inj (h.symm.trans (hw.trans ho'))
      exact hasks
    · exact absurd (h.symm.trans (hw.trans hoperand)) (by simp)
  · exact absurd (h.symm.trans hw) (by simp)

/-- A word is an operand exactly if it is spelled like nothing else. -/
theorem ofWord_eq_operand_iff {w : Bytes} : ofWord w = .operand ↔ IsOperand w := by
  constructor
  · intro h
    -- any of these spellings would make it a word of another kind
    refine ⟨?_, ?_, ?_, ?_⟩
    · intro hw
      exact absurd (h.symm.trans (ofWord_eq_separator_iff.mpr hw)) (by simp)
    · intro o value? hw
      exact absurd (h.symm.trans (ofWord_eq_named_iff.mpr hw)) (by simp)
    · intro hw
      obtain ⟨o, ho⟩ := exists_ofWord_eq_short_iff.mpr hw
      exact absurd (h.symm.trans ho) (by simp)
    · intro hw
      obtain ⟨name, hname⟩ := exists_ofWord_eq_unreadable_iff.mpr hw
      exact absurd (h.symm.trans hname) (by simp)
  · intro h
    cases hw : ofWord w with
    | separator => exact absurd (ofWord_eq_separator_iff.mp hw) h.not_separator
    | named o value? => exact absurd (ofWord_eq_named_iff.mp hw) (h.not_option o value?)
    | short o => exact absurd (exists_ofWord_eq_short_iff.mp ⟨o, hw⟩) h.not_short
    | unreadable name => exact absurd (exists_ofWord_eq_unreadable_iff.mp ⟨name, hw⟩) h.readable
    | operand => rfl

end Token

end PollWatch.CommandLine
