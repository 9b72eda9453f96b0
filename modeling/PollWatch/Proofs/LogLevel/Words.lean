import PollWatch.LogLevel
import PollWatch.Proofs.Text.Lowercase
import PollWatch.Proofs.Text.Trim

/-!
# The words for a level

The environment asks for a level by a word, and case and white space round the word do not matter.
Nothing else asks for a level:

> `chosen_exactly_by_words`: without a level on the command line, the level in force is the one
> whose word the environment spells, and warnings where it spells none; no text with a character
> outside ASCII has a word as its lower case; and a level on the command line is in force
> whatever the environment holds.

The text is trimmed, put into lower case, and compared with the words; what each of
these steps lets through is said by `Text.trim_eq_iff` and `Text.lowercaseAll_eq_iff`.
-/

namespace PollWatch.LogLevel

/-- The words that ask for a level. -/
def words : LogLevel → List String
  | .error => ["error"]
  | .warn => ["warn", "warning"]
  | .info => ["info"]
  | .debug => ["debug"]
  | .trace => ["trace"]

/-- A text spells a word: it holds the word's letters, each in either case, and any amount of white
space before and behind them. -/
def Spells (cs : List Char) (w : String) : Prop :=
  ∃ core, Text.Padded core cs ∧ List.Forall₂ Text.InEitherCase core w.toList

/-! ## Words -/

/-- The words are of small letters, and `k` is none of them. -/
theorem letters_of_mem_words {l : LogLevel} {w : String} (h : w ∈ l.words) :
    ∀ x ∈ w.toList, x.isLower ∧ x ≠ 'k' := by
  revert w
  cases l <;> simp [words]

theorem ascii_of_mem_words {l : LogLevel} {w : String} (h : w ∈ l.words) :
    ∀ x ∈ w.toList, x.toNat < 0x80 := fun x hx =>
  Text.toNat_lt_of_isAlpha (Text.isAlpha_of_isLower (letters_of_mem_words h x hx).1)

theorem mem_words_iff {l : LogLevel} {w : String} :
    w ∈ l.words ↔ w = l.word ∨ l = .warn ∧ w = "warning" := by
  cases l <;> simp [words, word]

/-- A level is found by its words. -/
theorem ofWord?_eq_some_iff {cs : List Char} {l : LogLevel} :
    ofWord? cs = some l ↔ ∃ w ∈ l.words, cs = w.toList := by
  unfold ofWord?
  split
  next hwarning =>
    subst hwarning
    constructor
    · intro h
      obtain rfl := Option.some.inj h
      exact ⟨"warning", by decide, rfl⟩
    · rintro ⟨w, hw, hcs⟩
      obtain rfl := String.toList_inj.mp hcs
      rcases mem_words_iff.mp hw with hword | ⟨rfl, -⟩
      · exact absurd hword (by cases l <;> decide)
      · rfl
  next hother =>
    constructor
    · intro h
      have hword := List.find?_some h
      exact ⟨l.word, mem_words_iff.mpr (Or.inl rfl), (of_decide_eq_true hword).symm⟩
    · rintro ⟨w, hw, rfl⟩
      rcases mem_words_iff.mp hw with rfl | ⟨-, rfl⟩
      · cases l <;> decide
      · exact absurd rfl hother

/-! ## Spelling a word -/

/-- A text has a word as its lower case exactly if it is the word's letters in either case. -/
theorem lowercaseAll_eq_word_iff {cs : List Char} {l : LogLevel} {w : String} (h : w ∈ l.words) :
    Text.lowercaseAll cs = w.toList ↔ List.Forall₂ Text.InEitherCase cs w.toList := by
  rw [Text.lowercaseAll_eq_iff (ascii_of_mem_words h), List.forall₂_iff_zip, List.forall₂_iff_zip]
  refine and_congr_right fun _ => forall_congr' fun c => forall_congr' fun x => ?_
  refine imp_congr_right fun hzip => ?_
  obtain ⟨hlower, hk⟩ := letters_of_mem_words h x (List.of_mem_zip hzip).2
  exact Text.lowercase_eq_singleton_iff hlower hk

/-- The letters of a word are all letters of ASCII in whatever case. -/
theorem isAlpha_of_inEitherCase {cs : List Char} {l : LogLevel} {w : String} (h : w ∈ l.words)
    (hcs : List.Forall₂ Text.InEitherCase cs w.toList) : ∀ c ∈ cs, c.isAlpha := by
  intro c hc
  obtain ⟨i, hi, rfl⟩ := List.getElem_of_mem hc
  have hx := hcs.get hi (hcs.length_eq ▸ hi)
  exact hx.isAlpha (letters_of_mem_words h _ (List.get_mem ..)).1

/-- A letter of ASCII is no white space. -/
theorem not_isBlank_of_isAlpha {c : Char} (h : c.isAlpha) : ¬ Text.isBlank c := by
  rw [Text.isAlpha_iff_toNat] at h
  simp only [Text.isBlank, Bool.or_eq_true, Bool.and_eq_true, decide_eq_true_eq, beq_iff_eq]
  omega

/-- **A text asks for a level exactly if it spells one of its words.** -/
theorem ofText?_eq_some_iff {cs : List Char} {l : LogLevel} :
    ofText? cs = some l ↔ ∃ w ∈ l.words, Spells cs w := by
  unfold ofText?
  rw [ofWord?_eq_some_iff]
  refine exists_congr fun w => and_congr_right fun hw => ?_
  rw [lowercaseAll_eq_word_iff hw]
  constructor
  · exact fun h => ⟨Text.trim cs, Text.padded_trim cs, h⟩
  · rintro ⟨core, hpadded, hcore⟩
    have hblank : ∀ c ∈ core, ¬ Text.isBlank c := fun c hc =>
      not_isBlank_of_isAlpha (isAlpha_of_inEitherCase hw hcore c hc)
    rwa [(Text.trim_eq_iff hblank).mpr hpadded]

/-- It asks for no level exactly if it spells no word. -/
theorem ofText?_eq_none_iff {cs : List Char} :
    ofText? cs = none ↔ ∀ m : LogLevel, ∀ w ∈ m.words, ¬ Spells cs w := by
  rw [Option.eq_none_iff_forall_ne_some]
  refine forall_congr' fun m => ?_
  rw [ne_eq, ofText?_eq_some_iff, not_exists]
  exact forall_congr' fun w => not_and

/-! ## The level in force -/

/-- Without a level on the command line, the level in force is the one that the environment asks
for, and warnings if it asks for none. -/
theorem choose_none_eq_iff {s : String} {l : LogLevel} :
    choose none (some (Bytes.ofString s)) = l ↔
      ofText? s.toList = some l ∨ l = .warn ∧ ofText? s.toList = none := by
  unfold choose
  rw [Option.bind_some, Bytes.text?_ofString, Option.bind_some]
  cases ofText? s.toList with
  | none => simp [eq_comm]
  | some asked => simp

/-- A text with a character outside ASCII has no word as its lower case. -/
theorem lowercaseAll_ne_word {cs : List Char} {c : Char} (hc : c ∈ cs) (h : 0x80 ≤ c.toNat)
    {l : LogLevel} {w : String} (hw : w ∈ l.words) : Text.lowercaseAll cs ≠ w.toList := by
  intro hlower
  have hletters := (lowercaseAll_eq_word_iff hw).mp hlower
  have hascii := Text.toNat_lt_of_isAlpha (isAlpha_of_inEitherCase hw hletters c hc)
  omega

/-- **Exactly the words, in either case and with white space round them, choose a level in the
environment; the command line comes before it.** -/
theorem chosen_exactly_by_words :
    (∀ (s : String) (l : LogLevel), choose none (some (Bytes.ofString s)) = l ↔
      (∃ w ∈ l.words, Spells s.toList w) ∨
        l = .warn ∧ ∀ m : LogLevel, ∀ w ∈ m.words, ¬ Spells s.toList w) ∧
    (∀ (cs : List Char) (c : Char), c ∈ cs → 0x80 ≤ c.toNat →
      ∀ l : LogLevel, ∀ w ∈ l.words, Text.lowercaseAll cs ≠ w.toList) ∧
    ∀ (l : LogLevel) (environment? : Option Bytes), choose (some l) environment? = l := by
  refine ⟨fun s l => ?_, fun cs c hc h l w hw => lowercaseAll_ne_word hc h hw, fun _ _ => rfl⟩
  rw [choose_none_eq_iff, ofText?_eq_some_iff, ofText?_eq_none_iff]

/-- A word in mixed letters between white space of two kinds is understood. A capital with a dot
above, whose lower case begins with an `i`, makes no word. -/
theorem chosen_exactly_by_words_mixed :
    choose none (some (Bytes.ofString "\u3000 tRaCe\u2028")) = .trace ∧
      ('\u0130' ∈ "\u0130nfo".toList ∧ 0x80 ≤ '\u0130'.toNat ∧ "info" ∈ words .info ∧
        Text.lowercaseAll "\u0130nfo".toList ≠ "info".toList) ∧
      choose (some .debug) (some (Bytes.ofString "error")) = .debug := by
  obtain ⟨hword, hascii, hgiven⟩ := chosen_exactly_by_words
  have hpadded : Text.Padded "tRaCe".toList "\u3000 tRaCe\u2028".toList :=
    ⟨['\u3000', ' '], ['\u2028'], by simp, by simp [Text.isBlank], by simp [Text.isBlank]⟩
  have hletters : List.Forall₂ Text.InEitherCase "tRaCe".toList "trace".toList := by
    simp [Text.InEitherCase]
  have hdotted : '\u0130' ∈ "\u0130nfo".toList := by simp
  have hinfo : "info" ∈ words .info := List.mem_singleton_self _
  refine ⟨(hword _ .trace).mpr (Or.inl ⟨"trace", List.mem_singleton_self _, _, hpadded, hletters⟩),
    ⟨hdotted, by decide, hinfo, ?_⟩, hgiven .debug _⟩
  exact hascii _ '\u0130' hdotted (by decide) .info "info" hinfo

end PollWatch.LogLevel
