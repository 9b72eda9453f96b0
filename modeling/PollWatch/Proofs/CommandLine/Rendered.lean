import PollWatch.Proofs.CommandLine.Digits
import PollWatch.Proofs.CommandLine.Split

/-!
# Writing a command line

What is wanted of a run (`Request`) can be written as a command line in many ways
(`Request.Rendering`): the options in any order, each value behind `=` or as the next word, the
usual interval written out or not, the operands behind the separator or, if nothing else could be
meant, without it. All of them are understood alike:

> `parse_rendering`: however a request is written, it is understood, as that request.

A rendering is a layout, so `parse_eq_ok_iff` says what it gives. It remains that each value is
read back from its text. The order of the settings does not matter, because no two of them say
anything about the same (`exists_interval?_iff`, `exists_level?_iff`).
-/

namespace PollWatch

/-- A log level is read back from its word. -/
theorem LogLevel.ofBytes?_word (l : LogLevel) : ofBytes? (Bytes.ofString l.word) = some l := by
  cases l <;> decide +kernel

namespace CommandLine

/-! ## Words without a hyphen in front -/

/-- A text that begins with a hyphen. -/
def BeginsWithHyphen (s : String) : Prop := s.toList.head? = some '-'

theorem Token.ofWord_of_not_beginsWithHyphen {s : String} (h : ¬ BeginsWithHyphen s) :
    ofWord (Bytes.ofString s) = .operand := by
  rw [Bytes.ofString_eq_flatMap]
  cases hs : s.toList with
  | nil => rfl
  | cons c cs =>
    have hc : c ≠ '-' := by
      rintro rfl
      exact h (congrArg List.head? hs)
    rw [List.flatMap_cons]
    cases hbytes : String.utf8EncodeChar c with
    | nil => exact absurd hbytes String.utf8EncodeChar_ne_nil
    | cons b rest =>
      have hhyphen : b.toNat = '-'.toNat ↔ c = '-' := utf8EncodeChar_head_iff (by decide) hbytes
      exact ofWord_of_ne_hyphen (fun hb => hc (hhyphen.mp (congrArg UInt8.toNat hb))) _

/-! ## Requests -/

/-- What is wanted of a run. -/
structure Request where
  intervalMs : Nat
  once : Bool
  level? : Option LogLevel
  paths : List String
  command : String
  interval_pos : 1 ≤ intervalMs
  interval_le : intervalMs ≤ maxInterval
  paths_ne_nil : paths ≠ []

/-- How options are spelled: whether the interval is written at all, and whether each value stands
behind `=` or is the next word. -/
structure Spelling where
  intervalInline? : Option Bool
  levelInline : Bool

namespace Request

variable (r : Request) (f : Spelling)

/-- The interval, if it is written. -/
def intervalSetting? : Option Setting :=
  f.intervalInline?.map (Setting.interval (decimal r.intervalMs))

/-- The log level, if one is wanted. -/
def levelSetting? : Option Setting :=
  r.level?.map fun l => .level (Bytes.ofString l.word) f.levelInline

/-- The settings that are written, in the order of the help. -/
def settings : List Setting :=
  (r.intervalSetting? f).toList ++ (if r.once then [Setting.once] else [])
    ++ (r.levelSetting? f).toList

/-- The paths and the command. -/
def operands : List String := r.paths ++ [r.command]

/-- A command line that asks for a request: a name for the program, the settings in any order,
perhaps the separator, and the operands. The interval may be missing if it is the usual one, and
the separator if the first path does not begin with a hyphen. -/
structure Rendering where
  name : Bytes
  spelling : Spelling
  settings : List Setting
  separated : Bool
  perm : settings.Perm (r.settings spelling)
  usual : spelling.intervalInline? = none → r.intervalMs = 1000
  plain : separated = false → ∀ p ∈ r.paths.head?, ¬ BeginsWithHyphen p

namespace Rendering

variable {r}

/-- The parts behind the program's name. -/
def layout (d : r.Rendering) : Layout :=
  ⟨d.settings, d.separated, r.operands.map Bytes.ofString⟩

/-- The words that are written. -/
def words (d : r.Rendering) : List Bytes := d.name :: d.layout.words

end Rendering

/-! ## What the settings say -/

variable {r f}

theorem mem_settings_iff {x : Setting} :
    x ∈ r.settings f ↔
      r.intervalSetting? f = some x ∨ (r.once ∧ x = .once) ∨ r.levelSetting? f = some x := by
  unfold settings
  rw [List.mem_append, List.mem_append, Option.mem_toList, Option.mem_toList, or_assoc]
  simp

theorem isReadable_of_mem_settings {x : Setting} (h : x ∈ r.settings f) : x.IsReadable := by
  rcases mem_settings_iff.mp h with h | ⟨-, rfl⟩ | h
  · obtain ⟨inline, -, rfl⟩ := Option.map_eq_some_iff.mp h
    refine ⟨?_, r.intervalMs, readInterval_decimal r.interval_pos r.interval_le⟩
    exact Option.isSome_iff_exists.mpr ⟨_, Bytes.text?_ofString _⟩
  · trivial
  · obtain ⟨l, -, rfl⟩ := Option.map_eq_some_iff.mp h
    exact ⟨l, LogLevel.ofBytes?_word l⟩

theorem nodup_settings : ((r.settings f).map Setting.option).Nodup := by
  unfold settings intervalSetting? levelSetting?
  cases f.intervalInline? <;> cases r.once <;> cases r.level? <;> simp [Setting.option]

/-- What is found first is what can be found, if that is one thing at most. -/
theorem findSome?_eq_of_forall {α β : Type} {g : α → Option β} {l : List α} {o : Option β}
    (h : ∀ b, (∃ x ∈ l, g x = some b) ↔ o = some b) : l.findSome? g = o := by
  cases hl : l.findSome? g with
  | some b => exact ((h b).mp (List.exists_of_findSome?_eq_some hl)).symm
  | none =>
    cases ho : o with
    | none => rfl
    | some b =>
      obtain ⟨x, hx, hb⟩ := (h b).mpr ho
      exact absurd ((List.findSome?_eq_none_iff.mp hl x hx).symm.trans hb) (by simp)

theorem interval?_interval (inline : Bool) :
    (Setting.interval (decimal r.intervalMs) inline).interval? = some r.intervalMs := by
  show (readInterval (decimal r.intervalMs)).toOption = _
  rw [readInterval_decimal r.interval_pos r.interval_le]
  rfl

/-- The settings say no other interval than the one that is wanted. -/
theorem exists_interval?_iff {n : Nat} :
    (∃ x ∈ r.settings f, x.interval? = some n) ↔
      f.intervalInline?.map (fun _ => r.intervalMs) = some n := by
  constructor
  · rintro ⟨x, hx, hn⟩
    rcases mem_settings_iff.mp hx with hx | ⟨-, rfl⟩ | hx
    · obtain ⟨inline, hinline, rfl⟩ := Option.map_eq_some_iff.mp hx
      rw [hinline, ← hn, interval?_interval]
      rfl
    · exact absurd hn (by simp [Setting.interval?])
    · obtain ⟨l, -, rfl⟩ := Option.map_eq_some_iff.mp hx
      exact absurd hn (by simp [Setting.interval?])
  · intro h
    obtain ⟨inline, hinline, rfl⟩ := Option.map_eq_some_iff.mp h
    refine ⟨_, mem_settings_iff.mpr (Or.inl ?_), interval?_interval inline⟩
    rw [intervalSetting?, hinline]
    rfl

/-- The settings say no other log level than the one that is wanted. -/
theorem exists_level?_iff {l : LogLevel} :
    (∃ x ∈ r.settings f, x.level? = some l) ↔ r.level? = some l := by
  constructor
  · rintro ⟨x, hx, hl⟩
    rcases mem_settings_iff.mp hx with hx | ⟨-, rfl⟩ | hx
    · obtain ⟨inline, -, rfl⟩ := Option.map_eq_some_iff.mp hx
      exact absurd hl (by simp [Setting.level?])
    · exact absurd hl (by simp [Setting.level?])
    · obtain ⟨l', hl', rfl⟩ := Option.map_eq_some_iff.mp hx
      rw [hl', ← hl]
      exact (LogLevel.ofBytes?_word l').symm
  · intro h
    refine ⟨.level (Bytes.ofString l.word) f.levelInline, ?_, LogLevel.ofBytes?_word l⟩
    refine mem_settings_iff.mpr (Or.inr (Or.inr ?_))
    rw [levelSetting?, h]
    rfl

theorem once_mem_settings_iff : Setting.once ∈ r.settings f ↔ r.once = true := by
  rw [mem_settings_iff]
  simp [intervalSetting?, levelSetting?]

/-! ## What a rendering gives -/

/-- What a request is understood as. -/
def invocation (r : Request) : Invocation := ⟨r.intervalMs, r.once, r.level?, r.operands⟩

namespace Rendering

theorem begins (d : r.Rendering) : d.layout.Begins := by
  intro hseparated w hw
  -- there is a path, so the first operand is one
  obtain ⟨p, ps, hpaths⟩ := List.exists_cons_of_ne_nil r.paths_ne_nil
  have hoperands : d.layout.operands
      = Bytes.ofString p :: (ps ++ [r.command]).map Bytes.ofString := by
    show (r.paths ++ [r.command]).map Bytes.ofString = _
    rw [hpaths, List.cons_append, List.map_cons]
  rw [hoperands] at hw
  obtain rfl := Option.some.inj hw
  have hplain := d.plain hseparated p (by rw [hpaths]; rfl)
  exact Token.ofWord_eq_operand_iff.mp (Token.ofWord_of_not_beginsWithHyphen hplain)

/-- In whatever order the settings stand, they say the same. -/
theorem gives (d : r.Rendering) : d.layout.Gives r.invocation where
  readable x hx := isReadable_of_mem_settings (d.perm.mem_iff.mp hx)
  nodup := (d.perm.map Setting.option).nodup_iff.mpr nodup_settings
  begins := d.begins
  interval := by
    have hfound : d.settings.findSome? Setting.interval?
        = d.spelling.intervalInline?.map fun _ => r.intervalMs :=
      findSome?_eq_of_forall fun n => by simp only [d.perm.mem_iff, exists_interval?_iff]
    show r.intervalMs = (d.settings.findSome? Setting.interval?).getD 1000
    rw [hfound]
    cases hspelled : d.spelling.intervalInline? with
    | none => exact d.usual hspelled
    | some inline => rfl
  once := by
    have hmem : Setting.once ∈ d.settings ↔ r.once = true :=
      d.perm.mem_iff.trans once_mem_settings_iff
    show r.once = decide (Setting.once ∈ d.settings)
    rw [Bool.eq_iff_iff, decide_eq_true_iff, hmem]
  level := by
    have hfound : d.settings.findSome? Setting.level? = r.level? :=
      findSome?_eq_of_forall fun l => by simp only [d.perm.mem_iff, exists_level?_iff]
    exact hfound.symm
  operands := rfl

end Rendering

theorem spec_invocation (r : Request) :
    r.invocation.spec = .ok ⟨r.paths.map Path.ofString, r.command⟩ := by
  have hlast : (r.paths ++ [r.command]).getLast? = some r.command := List.getLast?_concat
  have hfront : (r.paths ++ [r.command]).dropLast = r.paths := List.dropLast_concat
  show Invocation.spec ⟨_, _, _, r.paths ++ [r.command]⟩ = _
  unfold Invocation.spec
  dsimp only
  rw [hlast, hfront]
  cases hpaths : r.paths with
  | nil => exact absurd hpaths r.paths_ne_nil
  | cons p ps => rfl

/-- **Every way of writing a request is understood, as that request**: with its interval, its flag
and its log level, its paths and its command as they are, and the pace and the limit they ask
for. -/
theorem parse_rendering (r : Request) (d : r.Rendering) :
    parse d.words = .ok ⟨r.intervalMs, r.once, r.level?, r.paths ++ [r.command]⟩ ∧
      Invocation.spec ⟨r.intervalMs, r.once, r.level?, r.paths ++ [r.command]⟩
        = .ok ⟨r.paths.map Path.ofString, r.command⟩ ∧
      Invocation.options ⟨r.intervalMs, r.once, r.level?, r.paths ++ [r.command]⟩
        = ⟨r.intervalMs, if r.once then some 1 else none⟩ :=
  ⟨parse_eq_ok_iff.mpr ⟨d.layout, rfl, d.gives⟩, spec_invocation r, rfl⟩

end Request

/-- Paths and a command that look like options, with the greatest interval. -/
def lookalike : Request where
  intervalMs := 18446744073709551615
  once := true
  level? := some .trace
  paths := ["--", "", "--once"]
  command := "--help"
  interval_pos := by decide
  interval_le := by decide
  paths_ne_nil := by simp

/-- The settings from the last to the first, and the interval as a word of its own. -/
def lookalikeRendering : lookalike.Rendering where
  name := Bytes.ofString "ifchanged"
  spelling := ⟨some false, true⟩
  settings := (lookalike.settings ⟨some false, true⟩).reverse
  separated := true
  perm := List.reverse_perm _
  usual h := absurd h (by simp)
  plain h := absurd h (by simp)

theorem parse_rendering_lookalike :
    lookalikeRendering.words
        = ["ifchanged", "--log-level=trace", "--once", "--interval-ms", "18446744073709551615",
            "--", "--", "", "--once", "--help"].map Bytes.ofString ∧
      parse lookalikeRendering.words
        = .ok ⟨18446744073709551615, true, some .trace, ["--", "", "--once", "--help"]⟩ :=
  ⟨by decide +kernel, (Request.parse_rendering lookalike lookalikeRendering).1⟩

end CommandLine

end PollWatch
