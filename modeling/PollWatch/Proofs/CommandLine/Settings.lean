import PollWatch.CommandLine.Parse
import PollWatch.Proofs.CommandLine.Words

/-!
# The settings of a command line

A setting is an option with all that belongs to it: the words it is spelled in, the
option it takes up, and what it sets. Noting one setting after another succeeds
in one way only:

> `foldlM_note_eq_ok_iff`: every value can be read and no option stands twice; then the
> result is what the settings set, each its own, in whatever order.
-/

namespace PollWatch.CommandLine

theorem bind_eq_ok_iff {ε α β : Type} {x : Except ε α} {f : α → Except ε β} {b : β} :
    x >>= f = .ok b ↔ ∃ a, x = .ok a ∧ f a = .ok b := by
  cases x with
  | error e =>
    constructor
    · intro h
      exact absurd (show Except.error e = .ok b from h) (by simp)
    · rintro ⟨a, ha, -⟩
      exact absurd ha (by simp)
  | ok a =>
    constructor
    · intro h
      exact ⟨a, rfl, h⟩
    · rintro ⟨a', ha, h⟩
      obtain rfl := Except.ok.inj ha
      exact h

/-- A setting as it stands on a command line. The flag says whether the value stands behind `=`
or is the next word. -/
inductive Setting where
  | interval (value : Bytes) (inline : Bool)
  | once
  | level (value : Bytes) (inline : Bool)
deriving DecidableEq

namespace Setting

/-- The option that a setting takes up. -/
def option : Setting → OptionName
  | .interval _ _ => .interval
  | .once => .once
  | .level _ _ => .level

/-- An option and its value, in one word or in two. -/
def valueWords (o : OptionName) (value : Bytes) : Bool → List Bytes
  | true => [o.spelled (some value)]
  | false => [o.spelled none, value]

/-- The words that a setting is spelled in. -/
def words : Setting → List Bytes
  | .interval value inline => valueWords .interval value inline
  | .once => [OptionName.once.spelled none]
  | .level value inline => valueWords .level value inline

/-- The interval that is set. -/
def interval? : Setting → Option Nat
  | .interval value _ => (readInterval value).toOption
  | _ => none

/-- The log level that is set. -/
def level? : Setting → Option LogLevel
  | .level value _ => LogLevel.ofBytes? value
  | _ => none

/-- The value of a setting can be read. -/
def IsReadable : Setting → Prop
  | .interval value _ => (Bytes.text? value).isSome ∧ ∃ n, readInterval value = .ok n
  | .once => True
  | .level value _ => ∃ l, LogLevel.ofBytes? value = some l

end Setting

/-! ## Values do not look like options -/

namespace Token

/-- A word without a hyphen in front is an operand. -/
theorem ofWord_of_ne_hyphen {b : UInt8} (h : b ≠ hyphen) (rest : Bytes) :
    ofWord (b :: rest) = .operand := by
  cases rest with
  | nil => rfl
  | cons c rest => simp only [ofWord, if_neg h]

theorem ofWord_of_readDigits {w : Bytes} {m n : Nat} (h : readDigits m w = .ok n) :
    ofWord w = .operand := by
  cases w with
  | nil => rfl
  | cons b w =>
    -- a hyphen is no digit
    refine ofWord_of_ne_hyphen ?_ w
    rintro rfl
    have hdigit : digit? hyphen = none := by decide
    rw [readDigits, hdigit] at h
    exact absurd h (by simp)

theorem ofWord_of_readInterval {w : Bytes} {n : Nat} (h : readInterval w = .ok n) :
    ofWord w = .operand := by
  unfold readInterval at h
  split at h
  next => exact absurd h (by simp)
  next =>
    cases w with
    | nil => rfl
    | cons b w =>
      rw [readNumber] at h
      split at h
      next hb =>
        rw [hb.1]
        exact ofWord_of_ne_hyphen (by decide) w
      next => exact ofWord_of_readDigits h

theorem ofWord_of_level {w : Bytes} {l : LogLevel} (h : LogLevel.ofBytes? w = some l) :
    ofWord w = .operand := by
  have hw : Bytes.ofString l.word = w := by simpa using List.find?_some h
  rw [← hw]
  cases l <;> decide +kernel

end Token

/-! ## Noting settings -/

namespace Seen

/-- Note a setting. -/
def note (s : Seen) : Setting → Except Stop Seen
  | .interval value _ => s.set .interval value
  | .once => s.setFlag .once true
  | .level value _ => s.set .level value

/-- The option was seen. -/
def has (s : Seen) : OptionName → Bool
  | .interval => s.interval?.isSome
  | .once => s.once
  | .level => s.level?.isSome
  | _ => false

/-- What is seen with one setting more. -/
def put (s : Seen) (x : Setting) : Seen :=
  ⟨s.interval? <|> x.interval?, s.once || decide (x = .once), s.level? <|> x.level?⟩

theorem setInterval_eq_ok_iff {s s' : Seen} {value : Bytes} :
    s.setInterval value = .ok s' ↔
      s.interval?.isSome = false ∧ (Bytes.text? value).isSome ∧
        ∃ n, readInterval value = .ok n ∧ s' = { s with interval? := some n } := by
  unfold setInterval
  cases hseen : s.interval?.isSome with
  | true => simp
  | false =>
    cases htext : Bytes.text? value with
    | none => simp
    | some text =>
      cases hread : readInterval value with
      | error why => simp
      | ok n => simp [eq_comm]

theorem setLevel_eq_ok_iff {s s' : Seen} {value : Bytes} :
    s.setLevel value = .ok s' ↔
      s.level?.isSome = false ∧
        ∃ l, LogLevel.ofBytes? value = some l ∧ s' = { s with level? := some l } := by
  unfold setLevel
  cases hseen : s.level?.isSome with
  | true => simp
  | false =>
    cases hlevel : LogLevel.ofBytes? value with
    | none =>
      by_cases hnil : value = [] <;> simp [hnil]
    | some l => simp [eq_comm]

theorem setFlag_once_eq_ok_iff {s s' : Seen} :
    s.setFlag .once true = .ok s' ↔ s.once = false ∧ s' = { s with once := true } := by
  unfold setFlag
  cases s.once <;> simp [eq_comm]

theorem put_interval {s : Seen} {value : Bytes} {n : Nat} (hnew : s.interval?.isSome = false)
    (hn : readInterval value = .ok n) (inline : Bool) :
    s.put (.interval value inline) = { s with interval? := some n } := by
  have hnone : s.interval? = none := by simpa using hnew
  simp [put, Setting.interval?, Setting.level?, hnone, hn, Except.toOption]

theorem put_level {s : Seen} {value : Bytes} {l : LogLevel} (hnew : s.level?.isSome = false)
    (hl : LogLevel.ofBytes? value = some l) (inline : Bool) :
    s.put (.level value inline) = { s with level? := some l } := by
  have hnone : s.level? = none := by simpa using hnew
  simp [put, Setting.interval?, Setting.level?, hnone, hl]

/-- A setting is noted if its value can be read and its option was not seen before. -/
theorem note_eq_ok_iff {s s' : Seen} {x : Setting} :
    s.note x = .ok s' ↔ x.IsReadable ∧ s.has x.option = false ∧ s' = s.put x := by
  cases x with
  | interval value inline =>
    show s.setInterval value = _ ↔ _
    rw [setInterval_eq_ok_iff]
    constructor
    · rintro ⟨hnew, htext, n, hn, rfl⟩
      exact ⟨⟨htext, n, hn⟩, hnew, (put_interval hnew hn inline).symm⟩
    · rintro ⟨⟨htext, n, hn⟩, hnew, rfl⟩
      exact ⟨hnew, htext, n, hn, put_interval hnew hn inline⟩
  | once =>
    show s.setFlag .once true = _ ↔ _
    rw [setFlag_once_eq_ok_iff]
    simp [Setting.IsReadable, has, Setting.option, put, Setting.interval?, Setting.level?]
  | level value inline =>
    show s.setLevel value = _ ↔ _
    rw [setLevel_eq_ok_iff]
    constructor
    · rintro ⟨hnew, l, hl, rfl⟩
      exact ⟨⟨l, hl⟩, hnew, (put_level hnew hl inline).symm⟩
    · rintro ⟨⟨l, hl⟩, hnew, rfl⟩
      exact ⟨hnew, l, hl, put_level hnew hl inline⟩

theorem has_put {x : Setting} (h : x.IsReadable) (s : Seen) (o : OptionName) :
    (s.put x).has o = (s.has o || decide (o = x.option)) := by
  cases x with
  | interval value inline =>
    obtain ⟨-, n, hn⟩ := h
    cases o <;> simp [put, has, Setting.option, Setting.interval?, Setting.level?, hn,
      Except.toOption]
  | once => cases o <;> simp [put, has, Setting.option, Setting.interval?, Setting.level?]
  | level value inline =>
    obtain ⟨l, hl⟩ := h
    cases o <;> simp [put, has, Setting.option, Setting.interval?, Setting.level?, hl]

/-- Settings can be noted one after another if their values can be read, no option stands twice,
and none was seen before. -/
theorem foldlM_note_eq_ok_iff {settings : List Setting} {s s' : Seen} :
    settings.foldlM note s = .ok s' ↔
      (∀ x ∈ settings, x.IsReadable) ∧ (settings.map Setting.option).Nodup ∧
        (∀ x ∈ settings, s.has x.option = false) ∧ s' = settings.foldl put s := by
  induction settings generalizing s with
  | nil =>
    show Except.ok s = .ok s' ↔ _
    rw [Except.ok.injEq, eq_comm]
    simp
  | cons x settings ih =>
    rw [List.foldlM_cons, bind_eq_ok_iff]
    simp only [note_eq_ok_iff, ih, List.forall_mem_cons, List.map_cons, List.nodup_cons,
      List.mem_map, List.foldl_cons]
    constructor
    · -- what is new after `x` was new before it, and is not the option of `x`
      rintro ⟨s₁, ⟨hx, hnew, rfl⟩, hreadable, hnodup, hall, rfl⟩
      refine ⟨⟨hx, hreadable⟩, ⟨?_, hnodup⟩, ⟨hnew, fun y hy => ?_⟩, rfl⟩
      · rintro ⟨y, hy, hsame⟩
        have hy' := hall y hy
        rw [has_put hx, hsame] at hy'
        exact absurd hy' (by simp)
      · have hy' := hall y hy
        rw [has_put hx, Bool.or_eq_false_iff] at hy'
        exact hy'.1
    · rintro ⟨⟨hx, hreadable⟩, ⟨hnot, hnodup⟩, ⟨hnew, hall⟩, rfl⟩
      refine ⟨s.put x, ⟨hx, hnew, rfl⟩, hreadable, hnodup, fun y hy => ?_, rfl⟩
      rw [has_put hx, hall y hy]
      have hne : y.option ≠ x.option := fun hsame => hnot ⟨y, hy, hsame⟩
      simpa using hne

/-! ## What the settings come to -/

theorem interval?_foldl_put (settings : List Setting) (s : Seen) :
    (settings.foldl put s).interval? = (s.interval? <|> settings.findSome? Setting.interval?) := by
  induction settings generalizing s with
  | nil => simp
  | cons x settings ih =>
    rw [List.foldl_cons, ih, List.findSome?_cons, put]
    cases s.interval? <;> cases x.interval? <;> simp

theorem level?_foldl_put (settings : List Setting) (s : Seen) :
    (settings.foldl put s).level? = (s.level? <|> settings.findSome? Setting.level?) := by
  induction settings generalizing s with
  | nil => simp
  | cons x settings ih =>
    rw [List.foldl_cons, ih, List.findSome?_cons, put]
    cases s.level? <;> cases x.level? <;> simp

theorem once_foldl_put (settings : List Setting) (s : Seen) :
    (settings.foldl put s).once = (s.once || decide (Setting.once ∈ settings)) := by
  induction settings generalizing s with
  | nil => simp
  | cons x settings ih =>
    have hflip : decide (x = Setting.once) = decide (Setting.once = x) :=
      decide_eq_decide.mpr eq_comm
    rw [List.foldl_cons, ih, put, hflip]
    simp only [List.mem_cons, Bool.decide_or, Bool.or_assoc]

end Seen

end PollWatch.CommandLine
