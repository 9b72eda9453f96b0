import PollWatch.Proofs.CommandLine.IntervalText
import PollWatch.Proofs.CommandLine.Split
import PollWatch.Proofs.Program.Exit

/-!
# The interval of a run

Where a run begins, its interval was either left as usual or written out, and it is the number that
was written: positive, of 64 bits, and not wrapped.

> `interval_accepted`: behind `--interval-ms=` exactly the texts of such numbers are accepted; the
> run then has that interval, and behind any other text no run begins. Whatever else stands on
> a command line, the interval of a run is such a number.

The first part follows one command line word by word (`parse_intervalLine`). The second
is read off the layout that every understood command line has (`parse_eq_ok_iff`).
-/

namespace PollWatch

namespace CommandLine

/-! ## One interval and operands -/

/-- A command line with an interval in one word, perhaps the separator, and operands. -/
def intervalLine (name : Bytes) (v : String) (separated : Bool) (operands : List String) :
    List Bytes :=
  name :: Bytes.ofString ("--interval-ms=" ++ v)
    :: Layout.tail ⟨[], separated, operands.map Bytes.ofString⟩

theorem ofString_interval (v : String) :
    Bytes.ofString ("--interval-ms=" ++ v)
      = OptionName.interval.spelled (some (Bytes.ofString v)) := by
  have hname : Bytes.ofString "--interval-ms="
      = hyphen :: hyphen :: (Bytes.ofString OptionName.interval.word ++ [61]) := by
    decide +kernel
  rw [Bytes.ofString_append, hname, List.cons_append, List.cons_append, List.append_assoc]
  rfl

variable {name : Bytes} {v : String} {separated : Bool} {operands : List String}

/-- Such a command line is understood exactly if its interval is, which decides the rest. -/
theorem parse_intervalLine
    (h : Layout.Begins ⟨[], separated, operands.map Bytes.ofString⟩) :
    parse (intervalLine name v separated operands)
      = match readInterval (Bytes.ofString v) with
        | .ok n => .ok ⟨n, false, none, operands⟩
        | .error why => .error (.invalidInterval v why) := by
  -- nothing is pending when the first word is read, and its value stands in it
  have hword : parse (intervalLine name v separated operands)
      = Seen.setInterval {} (Bytes.ofString v) >>= fun s =>
          readWords .nothing s (Layout.tail ⟨[], separated, operands.map Bytes.ofString⟩) := by
    unfold parse intervalLine
    rw [ofString_interval, List.drop_succ_cons, List.drop_zero]
    simp only [readWords, Token.ofWord_spelled]
    rfl
  rw [hword]
  unfold Seen.setInterval
  rw [Bytes.text?_ofString]
  cases readInterval (Bytes.ofString v) with
  | error why => rfl
  | ok n => exact (readWords_tail h).mpr (readOperands_eq_ok_iff.mpr ⟨operands, rfl, rfl⟩)

/-- Such a command line is understood exactly if the text writes an interval. -/
theorem parse_intervalLine_eq_ok_iff
    (h : Layout.Begins ⟨[], separated, operands.map Bytes.ofString⟩) {inv : Invocation} :
    parse (intervalLine name v separated operands) = .ok inv ↔
      ∃ n, WritesInterval v n ∧ inv = ⟨n, false, none, operands⟩ := by
  rw [parse_intervalLine h]
  constructor
  · intro hparse
    split at hparse
    next n hn => exact ⟨n, readInterval_text.mp hn, (Except.ok.inj hparse).symm⟩
    next => exact absurd hparse (by simp)
  · rintro ⟨n, hwrites, rfl⟩
    rw [readInterval_text.mpr hwrites]

/-! ## Any command line -/

theorem words_infix {l : Layout} {x : Setting} (h : x ∈ l.settings) : x.words <:+: l.words := by
  obtain ⟨front, behind, hsettings⟩ := List.append_of_mem h
  unfold Layout.words
  rw [hsettings, List.flatMap_append, List.flatMap_cons]
  exact ⟨front.flatMap Setting.words, behind.flatMap Setting.words ++ l.tail, by simp⟩

/-- A command line that is understood leaves the interval as usual, or writes it. -/
theorem interval_of_parse {words : List Bytes} {inv : Invocation} (h : parse words = .ok inv) :
    inv.intervalMs = 1000 ∨
      ∃ v inline, Setting.valueWords .interval (Bytes.ofString v) inline <:+: words ∧
        WritesInterval v inv.intervalMs := by
  obtain ⟨l, hwords, hl⟩ := parse_eq_ok_iff.mp h
  have hinterval := hl.interval
  cases hset : l.settings.findSome? Setting.interval? with
  | none =>
    rw [hset] at hinterval
    exact Or.inl hinterval
  | some n =>
    rw [hset] at hinterval
    obtain rfl : inv.intervalMs = n := hinterval
    obtain ⟨x, hx, hn⟩ := List.exists_of_findSome?_eq_some hset
    cases x with
    | once => exact absurd hn (by simp [Setting.interval?])
    | level value inline => exact absurd hn (by simp [Setting.interval?])
    | interval value inline =>
      obtain ⟨htext, m, hm⟩ := hl.readable _ hx
      obtain ⟨v, hv⟩ := Option.isSome_iff_exists.mp htext
      obtain rfl := Bytes.ofString_of_text? hv
      have hmn : (readInterval (Bytes.ofString v)).toOption = some inv.intervalMs := hn
      rw [hm] at hmn
      obtain rfl : m = inv.intervalMs := Option.some.inj hmn
      have hinfix : Setting.valueWords .interval (Bytes.ofString v) inline <:+: words := by
        have hdrop := words_infix hx
        rw [← hwords] at hdrop
        exact hdrop.trans (List.drop_suffix 1 words).isInfix
      exact Or.inr ⟨v, inline, hinfix, readInterval_text.mp hm⟩

end CommandLine

namespace Program

open CommandLine

/-! ## Runs -/

/-- A run has the options that were asked for. -/
theorem start_eq_inr {env : Surroundings Console} {words : List Bytes}
    {environment? : Option Bytes} {c : Console} {r : Run}
    (h : start env words environment? c = .inr r) :
    ∃ inv, parse words = .ok inv ∧ r.options = inv.options := by
  unfold start at h
  split at h
  next => exact absurd h (by simp)
  next inv hparse =>
    refine ⟨inv, hparse, ?_⟩
    split at h
    next => exact absurd h (by simp)
    next r' hstart =>
      obtain rfl := Sum.inr.inj h
      unfold Run.start at hstart
      split at hstart
      next => exact absurd hstart (by simp)
      next => rw [← Except.ok.inj hstart]

/-- A run begins where there is something to watch and something to do. -/
theorem exists_start {words : List Bytes} {inv : Invocation} (hparse : parse words = .ok inv)
    (htwo : 2 ≤ inv.operands.length) (env : Surroundings Console) (environment? : Option Bytes)
    (c : Console) : ∃ r, start env words environment? c = .inr r := by
  rcases inv.spec_cases with ⟨hfew, -⟩ | ⟨-, spec, hspec⟩
  · omega
  · unfold start Run.start
    simp only [hparse, hspec]
    exact ⟨_, rfl⟩

/-- **An interval is accepted exactly if it is written as a positive number of 64 bits.** Behind
`--interval-ms=` that is ASCII digits, perhaps behind one plus sign, that denote such a number; the
number is then the interval of the run, and behind any other text no run begins. And whatever the
command line, the interval of a run that begins is the usual one, or such a number as it was
written. -/
theorem interval_accepted (name : Bytes) (v : String) (separated : Bool) (operands : List String)
    (hbegins : Layout.Begins ⟨[], separated, operands.map Bytes.ofString⟩)
    (htwo : 2 ≤ operands.length) :
    (∀ inv, parse (intervalLine name v separated operands) = .ok inv ↔
      ∃ n, WritesInterval v n ∧ inv = ⟨n, false, none, operands⟩) ∧
    (∀ n, WritesInterval v n → ∀ env environment? c, ∃ r,
      start env (intervalLine name v separated operands) environment? c = .inr r ∧
        r.options = ⟨n, none⟩) ∧
    ((¬ ∃ n, WritesInterval v n) →
      (∃ why, parse (intervalLine name v separated operands) = .error (.invalidInterval v why)) ∧
      ∀ env environment? c r,
        start env (intervalLine name v separated operands) environment? c ≠ .inr r) ∧
    ∀ env words environment? c r, start env words environment? c = .inr r →
      1 ≤ r.options.intervalMs ∧ r.options.intervalMs < UInt64.size ∧
        (r.options.intervalMs = 1000 ∨
          ∃ v inline, Setting.valueWords .interval (Bytes.ofString v) inline <:+: words ∧
            WritesInterval v r.options.intervalMs) := by
  refine ⟨fun inv => parse_intervalLine_eq_ok_iff hbegins, ?accepted, ?refused, ?any⟩
  case accepted =>
    intro n hwrites env environment? c
    have hparse : parse (intervalLine name v separated operands)
        = .ok ⟨n, false, none, operands⟩ :=
      (parse_intervalLine_eq_ok_iff hbegins).mpr ⟨n, hwrites, rfl⟩
    obtain ⟨r, hr⟩ := exists_start hparse htwo env environment? c
    obtain ⟨inv, hinv, hoptions⟩ := start_eq_inr hr
    obtain rfl := Except.ok.inj (hparse.symm.trans hinv)
    exact ⟨r, hr, hoptions⟩
  case refused =>
    intro hnone
    have hrefused : ∀ inv, parse (intervalLine name v separated operands) ≠ .ok inv := by
      intro inv hparse
      obtain ⟨n, hwrites, -⟩ := (parse_intervalLine_eq_ok_iff hbegins).mp hparse
      exact hnone ⟨n, hwrites⟩
    constructor
    · cases hread : readInterval (Bytes.ofString v) with
      | ok n => exact absurd ⟨n, readInterval_text.mp hread⟩ hnone
      | error why => exact ⟨why, by rw [parse_intervalLine hbegins, hread]⟩
    · intro env environment? c r hr
      obtain ⟨inv, hparse, -⟩ := start_eq_inr hr
      exact hrefused inv hparse
  case any =>
    intro env words environment? c r hr
    obtain ⟨inv, hparse, hoptions⟩ := start_eq_inr hr
    have hinterval : r.options.intervalMs = inv.intervalMs := by
      rw [hoptions]
      rfl
    rw [hinterval]
    rcases interval_of_parse hparse with husual | ⟨v, inline, hinfix, hwrites⟩
    · rw [husual]
      exact ⟨by decide, by decide, Or.inl rfl⟩
    · exact ⟨hwrites.2.1, hwrites.2.2, Or.inr ⟨v, inline, hinfix, hwrites⟩⟩

/-- The greatest interval may have a sign and leading zeros; one more is no interval. -/
theorem interval_accepted_greatest :
    parse (intervalLine [] "+0018446744073709551615" false ["src", "make"])
        = .ok ⟨18446744073709551615, false, none, ["src", "make"]⟩ ∧
      ∃ why, parse (intervalLine [] "18446744073709551616" false ["src", "make"])
        = .error (.invalidInterval "18446744073709551616" why) := by
  have hbegins : Layout.Begins ⟨[], false, ["src", "make"].map Bytes.ofString⟩ := by
    rintro - w hw
    obtain rfl := Option.some.inj hw
    exact Token.ofWord_eq_operand_iff.mp (by decide +kernel)
  have hgreatest : WritesInterval "+0018446744073709551615" 18446744073709551615 :=
    ⟨⟨"0018446744073709551615".toList, Or.inr (by simp), by simp, by simp, by decide⟩, by decide,
      by decide⟩
  have hlarge : ¬ ∃ n, WritesInterval "18446744073709551616" n := by
    rintro ⟨n, ⟨digits, rfl | hplus, -, -, rfl⟩, -, hle⟩
    · exact absurd hle (by decide)
    · have hhead : some '1' = some '+' := congrArg List.head? hplus
      exact absurd hhead (by decide)
  obtain ⟨haccepted, -⟩ :=
    interval_accepted [] "+0018446744073709551615" false ["src", "make"] hbegins (by decide)
  obtain ⟨-, -, hrefused, -⟩ :=
    interval_accepted [] "18446744073709551616" false ["src", "make"] hbegins (by decide)
  exact ⟨(haccepted _).mpr ⟨_, hgreatest, rfl⟩, (hrefused hlarge).1⟩

end Program

end PollWatch
