import PollWatch.Proofs.CommandLine.Settings

/-!
# How a command line splits

A command line is settings, perhaps the separator, and operands, in this order
(`Layout`). What is read from it is decided by these three parts:

> `parse_eq_ok_iff`: a command line is understood exactly if it has a layout whose
> settings can be read, each option once, and whose operands are text and do not begin with
> something else; the invocation is then what the settings say, with the operands as they stand.

The reader itself goes word by word, with an option that may still lack its value. A value
that has come may be noted at once, whatever follows (`readWords_settled`); so the reader
goes setting by setting too (`readWords_setting`), and the rest is induction.
-/

namespace PollWatch.CommandLine

section Reading

variable {s : Seen} {words : List Bytes} {inv : Invocation}

/-! ## One step of reading -/

/-- What is pending can be settled at once, unless it waits for a value: the words that follow
neither save nor spoil it. -/
theorem readWords_settled {p : Pending} (hp : ∀ o, p ≠ .awaiting o) :
    readWords p s words = .ok inv ↔
      ∃ s', p.settle s = .ok s' ∧ readWords .nothing s' words = .ok inv := by
  cases words with
  | nil => simp [readWords, bind_eq_ok_iff, Pending.settle]
  | cons w ws =>
    unfold readWords
    cases Token.ofWord w with
    | unreadable name => simp
    | separator => simp [bind_eq_ok_iff, Pending.settle]
    | short o => simp [bind_eq_ok_iff, Pending.settle]
    | named o value? =>
      cases value? with
      | none => by_cases hvalue : o.takesValue <;> simp [hvalue, bind_eq_ok_iff, Pending.settle]
      | some value =>
        by_cases hvalue : o.takesValue <;> simp [hvalue, bind_eq_ok_iff, Pending.settle]
    | operand =>
      cases p with
      | awaiting o => exact absurd rfl (hp o)
      | nothing => simp [bind_eq_ok_iff, Pending.settle]
      | holding o value => simp [bind_eq_ok_iff, Pending.settle]

theorem readWords_awaiting {o : OptionName} {value : Bytes} (h : Token.ofWord value = .operand) :
    readWords (.awaiting o) s (value :: words) = readWords (.holding o value) s words := by
  rw [readWords, h]

/-- An option that waits for its value takes the next word, and only an operand. -/
theorem exists_of_readWords_awaiting {o : OptionName}
    (h : readWords (.awaiting o) s words = .ok inv) :
    ∃ value ws, words = value :: ws ∧ Token.ofWord value = .operand ∧
      readWords (.holding o value) s ws = .ok inv := by
  cases words with
  | nil => simp [readWords, bind_eq_ok_iff, Pending.settle] at h
  | cons w ws =>
    cases hw : Token.ofWord w with
    | operand => exact ⟨w, ws, rfl, hw, (readWords_awaiting hw).symm.trans h⟩
    | unreadable name => simp [readWords, hw] at h
    | separator => simp [readWords, hw, bind_eq_ok_iff, Pending.settle] at h
    | short o => simp [readWords, hw, bind_eq_ok_iff, Pending.settle] at h
    | named o value? =>
      cases value? with
      | none =>
        by_cases hvalue : o.takesValue <;>
          simp [readWords, hw, hvalue, bind_eq_ok_iff, Pending.settle] at h
      | some value =>
        by_cases hvalue : o.takesValue <;>
          simp [readWords, hw, hvalue, bind_eq_ok_iff, Pending.settle] at h

/-- An option with its value is noted, whether the two are one word or two. -/
theorem readWords_valueWords {o : OptionName} {value : Bytes} (ho : o.takesValue)
    (hvalue : Token.ofWord value = .operand) (inline : Bool) :
    readWords .nothing s (Setting.valueWords o value inline ++ words) = .ok inv ↔
      ∃ s', s.set o value = .ok s' ∧ readWords .nothing s' words = .ok inv := by
  cases inline with
  | true =>
    simp [Setting.valueWords, readWords, ho, bind_eq_ok_iff, Pending.settle]
  | false =>
    have hnamed : readWords .nothing s (o.spelled none :: value :: words) = .ok inv ↔
        readWords (.awaiting o) s (value :: words) = .ok inv := by
      simp only [readWords, Token.ofWord_spelled, if_pos ho, bind_eq_ok_iff, Pending.settle]
      simp
    show readWords .nothing s (o.spelled none :: value :: words) = _ ↔ _
    -- the value is held until the word after it is seen, which changes nothing
    rw [hnamed, readWords_awaiting hvalue]
    exact readWords_settled (by simp)

/-- The reader notes setting by setting. -/
theorem readWords_setting {x : Setting} (hx : x.IsReadable) :
    readWords .nothing s (x.words ++ words) = .ok inv ↔
      ∃ s', s.note x = .ok s' ∧ readWords .nothing s' words = .ok inv := by
  cases x with
  | interval value inline =>
    obtain ⟨-, n, hn⟩ := hx
    exact readWords_valueWords rfl (Token.ofWord_of_readInterval hn) inline
  | once =>
    simp [Setting.words, readWords, OptionName.takesValue, bind_eq_ok_iff, Pending.settle,
      Seen.note]
  | level value inline =>
    obtain ⟨l, hl⟩ := hx
    exact readWords_valueWords rfl (Token.ofWord_of_level hl) inline

theorem mapM_text?_eq_some_iff {operands : List String} :
    words.mapM Bytes.text? = some operands ↔ operands.map Bytes.ofString = words := by
  induction words generalizing operands with
  | nil => simp [eq_comm]
  | cons w ws ih =>
    rw [List.mapM_cons]
    constructor
    · intro h
      obtain ⟨text, htext, h⟩ := Option.bind_eq_some_iff.mp h
      obtain ⟨texts, htexts, h⟩ := Option.bind_eq_some_iff.mp h
      obtain rfl := Option.some.inj h
      rw [List.map_cons, Bytes.ofString_of_text? htext, ih.mp htexts]
    · intro h
      cases operands with
      | nil => exact absurd h (by simp)
      | cons text texts =>
        obtain ⟨rfl, hrest⟩ := List.cons.inj h
        rw [Bytes.text?_ofString, ih.mpr hrest]
        rfl

/-- Operands are read where they are text, and stay as they are written. -/
theorem readOperands_eq_ok_iff :
    readOperands s words = .ok inv ↔
      ∃ operands, operands.map Bytes.ofString = words ∧ inv = s.invocation operands := by
  unfold readOperands
  cases hwords : words.mapM Bytes.text? with
  | none =>
    refine ⟨fun h => absurd h (by simp), ?_⟩
    rintro ⟨operands, hoperands, -⟩
    exact absurd (hwords.symm.trans (mapM_text?_eq_some_iff.mpr hoperands)) (by simp)
  | some operands =>
    constructor
    · intro h
      exact ⟨operands, mapM_text?_eq_some_iff.mp hwords, (Except.ok.inj h).symm⟩
    · rintro ⟨operands', hoperands, rfl⟩
      obtain rfl := Option.some.inj (hwords.symm.trans (mapM_text?_eq_some_iff.mpr hoperands))
      rfl

end Reading

/-! ## Layouts -/

/-- The parts of a command line: settings, perhaps the separator, and operands. -/
structure Layout where
  settings : List Setting
  separated : Bool
  operands : List Bytes

namespace Layout

/-- The operands, behind the separator if there is one. -/
def tail (l : Layout) : List Bytes :=
  if l.separated then separatorWord :: l.operands else l.operands

/-- The words behind the program's name. -/
def words (l : Layout) : List Bytes := l.settings.flatMap Setting.words ++ l.tail

theorem words_cons (x : Setting) (settings : List Setting) (separated : Bool)
    (operands : List Bytes) :
    words ⟨x :: settings, separated, operands⟩
      = x.words ++ words ⟨settings, separated, operands⟩ := by
  rw [words, words, List.flatMap_cons, List.append_assoc]
  rfl

/-- Without the separator, the operands begin with a word that is nothing else. -/
def Begins (l : Layout) : Prop := l.separated = false → ∀ w ∈ l.operands.head?, IsOperand w

/-- What a layout gives: its settings can be read, each option once, and they decide the interval,
the flag and the log level; its operands are text and stay as they stand. -/
structure Gives (l : Layout) (inv : Invocation) : Prop where
  readable : ∀ x ∈ l.settings, x.IsReadable
  nodup : (l.settings.map Setting.option).Nodup
  begins : l.Begins
  interval : inv.intervalMs = (l.settings.findSome? Setting.interval?).getD 1000
  once : inv.once = decide (Setting.once ∈ l.settings)
  level : inv.level? = l.settings.findSome? Setting.level?
  operands : inv.operands.map Bytes.ofString = l.operands

end Layout

section Reading

variable {s : Seen} {words : List Bytes} {inv : Invocation}

theorem readWords_tail {l : Layout} (h : l.Begins) :
    readWords .nothing s l.tail = .ok inv ↔ readOperands s l.operands = .ok inv := by
  obtain ⟨settings, separated, operands⟩ := l
  cases separated with
  | true =>
    have hkind : Token.ofWord separatorWord = .separator := Token.ofWord_eq_separator_iff.mpr rfl
    simp [Layout.tail, readWords, hkind, bind_eq_ok_iff, Pending.settle]
  | false =>
    cases operands with
    | nil => simp [Layout.tail, readWords, bind_eq_ok_iff, Pending.settle]
    | cons w ws =>
      have hkind : Token.ofWord w = .operand := Token.ofWord_eq_operand_iff.mpr (h rfl w rfl)
      simp [Layout.tail, readWords, hkind, bind_eq_ok_iff, Pending.settle]

/-- The words of a layout are read part by part. -/
theorem readWords_layout {l : Layout} (hreadable : ∀ x ∈ l.settings, x.IsReadable)
    (hbegins : l.Begins) :
    readWords .nothing s l.words = .ok inv ↔
      ∃ s', l.settings.foldlM Seen.note s = .ok s' ∧ readOperands s' l.operands = .ok inv := by
  obtain ⟨settings, separated, operands⟩ := l
  induction settings generalizing s with
  | nil =>
    show readWords .nothing s (Layout.tail ⟨[], separated, operands⟩) = _ ↔
      ∃ s', Except.ok s = Except.ok s' ∧ _
    rw [readWords_tail hbegins]
    simp
  | cons x settings ih =>
    have hx : x.IsReadable := hreadable x (List.mem_cons_self ..)
    have hrest := fun s' => ih (s := s')
      (fun y hy => hreadable y (List.mem_cons_of_mem _ hy)) hbegins
    rw [Layout.words_cons, readWords_setting hx]
    simp only [hrest, List.foldlM_cons, bind_eq_ok_iff]
    constructor
    · rintro ⟨s₁, hnote, s₂, hnotes, hoperands⟩
      exact ⟨s₂, ⟨s₁, hnote, hnotes⟩, hoperands⟩
    · rintro ⟨s₂, ⟨s₁, hnote, hnotes⟩, hoperands⟩
      exact ⟨s₁, hnote, s₂, hnotes, hoperands⟩

/-- What an option with its value sets, a setting sets. -/
theorem exists_setting {o : OptionName} (ho : o.takesValue) {value : Bytes} {s' : Seen}
    (h : s.set o value = .ok s') (inline : Bool) :
    ∃ x : Setting, x.IsReadable ∧ x.words = Setting.valueWords o value inline := by
  cases o with
  | interval =>
    have hnote : s.note (.interval value inline) = .ok s' := h
    exact ⟨.interval value inline, (Seen.note_eq_ok_iff.mp hnote).1, rfl⟩
  | level =>
    have hnote : s.note (.level value inline) = .ok s' := h
    exact ⟨.level value inline, (Seen.note_eq_ok_iff.mp hnote).1, rfl⟩
  | _ => exact absurd ho (by decide)

/-- Of the options, only settings let a command line be understood. -/
theorem exists_setting_of_named {o : OptionName} {value? : Option Bytes} {ws : List Bytes}
    (h : readWords .nothing s (o.spelled value? :: ws) = .ok inv) :
    ∃ x : Setting, x.IsReadable ∧ ∃ ws', o.spelled value? :: ws = x.words ++ ws' := by
  by_cases ho : o.takesValue
  · cases value? with
    | none =>
      -- the value is the next word
      simp only [readWords, Token.ofWord_spelled, if_pos ho, bind_eq_ok_iff, Pending.settle] at h
      obtain ⟨s', hs', h⟩ := h
      obtain ⟨value, ws', rfl, -, h⟩ := exists_of_readWords_awaiting h
      obtain ⟨s'', hset, -⟩ := (readWords_settled (by simp)).mp h
      obtain ⟨x, hx, hwords⟩ := exists_setting ho hset false
      exact ⟨x, hx, ws', by rw [hwords]; rfl⟩
    | some value =>
      simp only [readWords, Token.ofWord_spelled, if_pos ho, bind_eq_ok_iff, Pending.settle] at h
      obtain ⟨s', hs', s'', hset, -⟩ := h
      obtain ⟨x, hx, hwords⟩ := exists_setting ho hset true
      exact ⟨x, hx, ws, by rw [hwords]; rfl⟩
  · cases value? with
    | none =>
      -- help and version end the reading
      simp only [readWords, Token.ofWord_spelled, if_neg ho, bind_eq_ok_iff, Pending.settle] at h
      obtain ⟨s', hs', s'', hflag, -⟩ := h
      cases o with
      | once => exact ⟨.once, trivial, ws, rfl⟩
      | _ => exact absurd hflag (by simp [Seen.setFlag])
    | some value => simp [readWords, ho] at h

/-- A command line that is understood begins with a setting, or its settings are over. -/
theorem readWords_cases (h : readWords .nothing s words = .ok inv) :
    (∃ l : Layout, l.settings = [] ∧ words = l.words ∧ l.Begins) ∨
      ∃ x : Setting, x.IsReadable ∧ ∃ ws, words = x.words ++ ws := by
  cases words with
  | nil => exact Or.inl ⟨⟨[], false, []⟩, rfl, rfl, fun _ w hw => absurd hw (by simp)⟩
  | cons w ws =>
    cases hw : Token.ofWord w with
    | unreadable name => simp [readWords, hw] at h
    | short o =>
      rcases Token.help_or_version_of_short hw with rfl | rfl <;>
        simp [readWords, hw, bind_eq_ok_iff, Pending.settle, Seen.setFlag] at h
    | separator =>
      rw [Token.ofWord_eq_separator_iff.mp hw]
      exact Or.inl ⟨⟨[], true, ws⟩, rfl, rfl, fun hfalse => absurd hfalse (by simp)⟩
    | operand =>
      refine Or.inl ⟨⟨[], false, w :: ws⟩, rfl, rfl, fun _ w' hw' => ?_⟩
      obtain rfl := Option.some.inj hw'
      exact Token.ofWord_eq_operand_iff.mp hw
    | named o value? =>
      obtain rfl := Token.ofWord_eq_named_iff.mp hw
      exact Or.inr (exists_setting_of_named h)

theorem length_words_pos (x : Setting) : 0 < x.words.length := by
  cases x with
  | once => exact Nat.one_pos
  | interval value inline => cases inline <;> simp [Setting.words, Setting.valueWords]
  | level value inline => cases inline <;> simp [Setting.words, Setting.valueWords]

/-- A command line that is understood has a layout. -/
theorem exists_layout (h : readWords .nothing s words = .ok inv) :
    ∃ l : Layout, words = l.words ∧ (∀ x ∈ l.settings, x.IsReadable) ∧ l.Begins := by
  induction hn : words.length using Nat.strongRecOn generalizing s words with
  | _ n ih =>
    rcases readWords_cases h with ⟨l, hnil, hwords, hbegins⟩ | ⟨x, hx, ws, rfl⟩
    · refine ⟨l, hwords, fun x hx => ?_, hbegins⟩
      rw [hnil] at hx
      exact absurd hx List.not_mem_nil
    · -- the words behind the setting are fewer
      obtain ⟨s', -, hrest⟩ := (readWords_setting hx).mp h
      have hlength : ws.length < n := by
        have hpos := length_words_pos x
        rw [List.length_append] at hn
        omega
      obtain ⟨l, rfl, hreadable, hbegins⟩ := ih ws.length hlength hrest rfl
      exact ⟨⟨x :: l.settings, l.separated, l.operands⟩, (Layout.words_cons ..).symm,
        List.forall_mem_cons.mpr ⟨hx, hreadable⟩, hbegins⟩

theorem invocation_foldl_put (settings : List Setting) (operands : List String) :
    (settings.foldl Seen.put {}).invocation operands
      = ⟨(settings.findSome? Setting.interval?).getD 1000, decide (Setting.once ∈ settings),
          settings.findSome? Setting.level?, operands⟩ := by
  unfold Seen.invocation
  rw [Seen.interval?_foldl_put, Seen.level?_foldl_put, Seen.once_foldl_put]
  simp

/-- **A command line is understood exactly if it has a layout**, and the layout says what is
understood. -/
theorem parse_eq_ok_iff {words : List Bytes} :
    parse words = .ok inv ↔ ∃ l : Layout, words.drop 1 = l.words ∧ l.Gives inv := by
  have hunseen : ∀ x : Setting, Seen.has {} x.option = false := by
    intro x
    cases x <;> rfl
  unfold parse
  constructor
  · intro h
    obtain ⟨l, hwords, hreadable, hbegins⟩ := exists_layout h
    rw [hwords] at h
    obtain ⟨s, hs, h⟩ := (readWords_layout hreadable hbegins).mp h
    obtain ⟨-, hnodup, -, rfl⟩ := Seen.foldlM_note_eq_ok_iff.mp hs
    obtain ⟨operands, hoperands, rfl⟩ := readOperands_eq_ok_iff.mp h
    rw [invocation_foldl_put]
    exact ⟨l, hwords, hreadable, hnodup, hbegins, rfl, rfl, rfl, hoperands⟩
  · rintro ⟨l, hwords, hl⟩
    rw [hwords, readWords_layout hl.readable hl.begins]
    refine ⟨l.settings.foldl Seen.put {}, ?_, ?_⟩
    · exact Seen.foldlM_note_eq_ok_iff.mpr ⟨hl.readable, hl.nodup, fun x _ => hunseen x, rfl⟩
    · refine readOperands_eq_ok_iff.mpr ⟨inv.operands, hl.operands, ?_⟩
      rw [invocation_foldl_put, ← hl.interval, ← hl.once, ← hl.level]

end Reading

/-! ## Paths and command -/

/-- The operands end a layout. -/
theorem Layout.operands_suffix (l : Layout) : l.operands <:+ l.words := by
  have htail : l.operands <:+ l.tail := by
    unfold Layout.tail
    split
    next => exact List.suffix_cons _ _
    next => exact List.suffix_rfl
  exact htail.trans (List.suffix_append _ _)

/-- The paths and the command are the operands, and the command is the last of them. -/
theorem operands_of_spec {inv : Invocation} {spec : WatchSpec} (h : inv.spec = .ok spec) :
    2 ≤ inv.operands.length ∧
      spec.paths.map Path.toBytes = (inv.operands.map Bytes.ofString).dropLast ∧
      (inv.operands.map Bytes.ofString).getLast? = some (Bytes.ofString spec.command) := by
  unfold Invocation.spec at h
  split at h
  next command p ps hlast hpaths =>
    obtain rfl := Except.ok.inj h
    refine ⟨?_, ?_, ?_⟩
    · have hlength := congrArg List.length hpaths
      rw [List.length_dropLast, List.length_cons] at hlength
      omega
    · have hbytes : Path.toBytes ∘ Path.ofString = Bytes.ofString :=
        funext fun text => Path.toBytes_ofBytes _
      rw [List.map_map, hbytes, ← hpaths, List.map_dropLast]
    · rw [List.getLast?_map, hlast]
      rfl
  next => exact absurd h (by simp)

/-- **A command line splits into settings and operands.** It is understood exactly if it is
settings, each option at most once, perhaps the separator, and operands; without the separator the
first operand is no option. Interval, flag and log level come from the settings alone. If there
are paths and a command, there are two operands or more, the paths are the operands but the last,
and the command is the last word of the line, all of them byte for byte. -/
theorem parse_splits (words : List Bytes) (inv : Invocation) :
    (parse words = .ok inv ↔ ∃ l : Layout, words.drop 1 = l.words ∧ l.Gives inv) ∧
      ∀ l : Layout, words.drop 1 = l.words → l.Gives inv → ∀ spec, inv.spec = .ok spec →
        2 ≤ l.operands.length ∧ spec.paths.map Path.toBytes = l.operands.dropLast ∧
          l.operands.getLast? = some (Bytes.ofString spec.command) ∧
          words.getLast? = some (Bytes.ofString spec.command) := by
  refine ⟨parse_eq_ok_iff, fun l hwords hl spec hspec => ?_⟩
  obtain ⟨htwo, hpaths, hcommand⟩ := operands_of_spec hspec
  rw [hl.operands] at hpaths hcommand
  have hlength : l.operands.length = inv.operands.length := by
    rw [← hl.operands, List.length_map]
  have hsuffix : l.operands <:+ words := by
    have hdrop := l.operands_suffix
    rw [← hwords] at hdrop
    exact hdrop.trans (List.drop_suffix 1 words)
  refine ⟨hlength ▸ htwo, hpaths, hcommand, ?_⟩
  obtain ⟨front, rfl⟩ := hsuffix
  rw [List.getLast?_append, hcommand]
  rfl

/-- All settings, the separator, and an operand that looks like an option. -/
def mixed : List Bytes :=
  ["ifchanged", "--interval-ms", "250", "--once", "--log-level=debug", "--", "src", "--once",
    "make"].map Bytes.ofString

/-- The second `--once` is a path. -/
theorem parse_splits_mixed :
    ∃ l : Layout, mixed.drop 1 = l.words ∧
      l.Gives ⟨250, true, some .debug, ["src", "--once", "make"]⟩ ∧ 2 ≤ l.operands.length ∧
      mixed.getLast? = some (Bytes.ofString "make") := by
  have hparse : (parse mixed).toOption
      = some ⟨250, true, some .debug, ["src", "--once", "make"]⟩ := by
    decide +kernel
  cases h : parse mixed with
  | error e =>
    rw [h] at hparse
    exact absurd hparse (by simp [Except.toOption])
  | ok inv =>
    rw [h] at hparse
    obtain rfl := Option.some.inj hparse
    obtain ⟨hlayout, hspec⟩ := parse_splits mixed _
    obtain ⟨l, hwords, hl⟩ := hlayout.mp h
    obtain ⟨htwo, -, -, hcommand⟩ := hspec l hwords hl _ rfl
    exact ⟨l, hwords, hl, htwo, hcommand⟩

end PollWatch.CommandLine
