import Mathlib
import PollWatch.Program

/-!
# How the program exits

From a command line to an exit code there are five steps: the words are read, help and refusals are
answered, operands are counted, the log is set up, and the run goes on until it ends. They are
followed here in any surroundings, so that all that is said holds whatever a scan sees, whatever
the command does and whoever stops the program.

> `exit_code`: the code is zero if help or the version was asked for, or the run succeeds, and one
> whenever the program ends in another way; and with fewer than two operands no run begins.

A run may go on for ever, and then there is no code. So `Exits` is a relation, which has at most one
code and console for each beginning (`Exits.unique`); and it holds of what the program answers
within any bound, and of nothing else (`exits_iff`). The output may take nothing, but the stream
for messages is taken to be writable, as it is for every `Console`.
-/

namespace PollWatch

namespace Invocation

/-- There is something to watch and something to do exactly if there are two operands or more. -/
theorem spec_cases (i : Invocation) :
    (i.operands.length < 2 ∧ i.spec = .error (.usage usage)) ∨
      (2 ≤ i.operands.length ∧ ∃ spec, i.spec = .ok spec) := by
  unfold spec
  match i.operands with
  | [] => exact Or.inl ⟨by simp, rfl⟩
  | [_] => exact Or.inl ⟨by simp, rfl⟩
  | p :: q :: rest =>
    have hlast : (p :: q :: rest).getLast? = some ((q :: rest).getLast (by simp)) := by
      rw [List.getLast?_cons_cons, List.getLast?_eq_some_getLast]
    rw [hlast]
    exact Or.inr ⟨by simp, _, rfl⟩

end Invocation

namespace Session

variable {σ : Type} {env : Surroundings σ} {o : Options}

/-- A run that is over within a bound is over in the same way within any greater one. -/
theorem loop_add {n : Nat} {counts : Summary} {s : Session σ}
    {x : Except Halt Summary × Session σ} (h : loop env o n counts s = some x) (k : Nat) :
    loop env o (n + k) counts s = some x := by
  induction n generalizing counts s with
  | zero => exact absurd h (by simp [loop])
  | succ n ih =>
    rw [Nat.succ_add, loop]
    rw [loop] at h
    rcases hcycle : cycle env o counts s with r | ⟨d, t⟩
    · rw [hcycle] at h
      exact h
    · rw [hcycle] at h
      exact ih h

end Session

namespace Run

/-- Followed cycle by cycle, a run is the loop of its session. -/
theorem follow_eq (env : Surroundings Console) (n : Nat) (r : Run) :
    r.follow env n = (Session.loop env r.options n r.counts r.session).map conclude := by
  induction n generalizing r with
  | zero => rfl
  | succ n ih =>
    rw [follow, next, Session.loop]
    rcases r.session.cycle env r.options r.counts with x | ⟨d, t⟩
    · rfl
    · exact ih _

/-- A greater bound changes nothing for a run that is over. -/
theorem follow_add {env : Surroundings Console} {n : Nat} {r : Run}
    {e : Except Failure Unit × Console} (h : r.follow env n = some e) (k : Nat) :
    r.follow env (n + k) = some e := by
  rw [follow_eq] at h ⊢
  obtain ⟨x, hx, rfl⟩ := Option.map_eq_some_iff.mp h
  rw [Session.loop_add hx k]
  rfl

/-- A run ends in this way, after however many cycles. -/
def Ends (env : Surroundings Console) (r : Run) (e : Except Failure Unit × Console) : Prop :=
  ∃ n, r.follow env n = some e

theorem Ends.unique {env : Surroundings Console} {r : Run} {e f : Except Failure Unit × Console}
    (h : r.Ends env e) (h' : r.Ends env f) : e = f := by
  obtain ⟨n, hn⟩ := h
  obtain ⟨m, hm⟩ := h'
  -- the sum of the two bounds is enough for both
  have hsum := follow_add hn m
  rw [Nat.add_comm, follow_add hm n] at hsum
  exact (Option.some.inj hsum).symm

end Run

namespace Program

variable {env : Surroundings Console} {words : List Bytes} {environment? : Option Bytes}
  {c : Console}

/-- Watching as an invocation asks for ends in this way. -/
def Returns (env : Surroundings Console) (i : Invocation) (c : Console)
    (e : Except Failure Unit × Console) : Prop :=
  match Run.start env i c with
  | .error f => e = (.error f, c)
  | .ok r => r.Ends env e

/-- That is what watching within a bound answers, where the bound is great enough. -/
theorem returns_iff {i : Invocation} {e : Except Failure Unit × Console} :
    Returns env i c e ↔ ∃ bound, watchWithin env bound i c = some e := by
  unfold Returns watchWithin
  cases Run.start env i c with
  | error f => simp [eq_comm]
  | ok r => exact Iff.rfl

/-- The program exits with this code, and leaves this console. -/
def Exits (env : Surroundings Console) (words : List Bytes) (environment? : Option Bytes)
    (c : Console) (n : Nat) (after : Console) : Prop :=
  match start env words environment? c with
  | .inl e => e = (n, after)
  | .inr r => ∃ e, r.Ends env e ∧ close e = (n, after)

theorem Exits.unique {m n : Nat} {d d' : Console} (h : Exits env words environment? c m d)
    (h' : Exits env words environment? c n d') : m = n ∧ d = d' := by
  unfold Exits at h h'
  cases hstart : start env words environment? c with
  | inl e =>
    rw [hstart] at h h'
    exact Prod.mk.inj (h.symm.trans h')
  | inr r =>
    rw [hstart] at h h'
    obtain ⟨e, he, hclose⟩ := h
    obtain ⟨f, hf, hclose'⟩ := h'
    obtain rfl := he.unique hf
    exact Prod.mk.inj (hclose.symm.trans hclose')

/-- That is what the program answers within a bound, where the bound is great enough. -/
theorem exits_iff {n : Nat} {after : Console} :
    Exits env words environment? c n after ↔
      ∃ bound, runWithin env bound words environment? c = some (n, after) := by
  unfold Exits runWithin
  cases start env words environment? c with
  | inl e => simp
  | inr r =>
    constructor
    · rintro ⟨e, ⟨bound, he⟩, hclose⟩
      exact ⟨bound, Option.map_eq_some_iff.mpr ⟨e, he, hclose⟩⟩
    · rintro ⟨bound, hrun⟩
      obtain ⟨e, he, hclose⟩ := Option.map_eq_some_iff.mp hrun
      exact ⟨e, ⟨bound, he⟩, hclose⟩

/-! ## The beginnings -/

/-- A command line that is not understood is answered, and that is all. -/
theorem start_of_stop {s : CommandLine.Stop} (hparse : CommandLine.parse words = .error s) :
    start env words environment? c = .inl (answer s c) := by
  unfold start
  rw [hparse]

/-- With fewer than two operands the usage is told, and that is all. -/
theorem start_of_few {i : Invocation} (hparse : CommandLine.parse words = .ok i)
    (hfew : i.operands.length < 2) :
    start env words environment? c = .inl (1, c.say Invocation.usage) := by
  have hspec : i.spec = .error (.usage Invocation.usage) := by
    rcases i.spec_cases with ⟨-, hspec⟩ | ⟨hmany, -⟩
    · exact hspec
    · omega
  unfold start Run.start
  rw [hparse]
  dsimp only
  rw [hspec]
  rfl

/-- With two operands or more a run begins, and the program exits as the run returns. -/
theorem exits_iff_of_many {i : Invocation} (hparse : CommandLine.parse words = .ok i)
    (hmany : 2 ≤ i.operands.length) {n : Nat} {after : Console} :
    Exits env words environment? c n after ↔
      ∃ e, Returns env i (withLog i environment? c) e ∧ close e = (n, after) := by
  obtain ⟨spec, hspec⟩ : ∃ spec, i.spec = .ok spec := by
    rcases i.spec_cases with ⟨hfew, -⟩ | ⟨-, hspec⟩
    · omega
    · exact hspec
  unfold Exits start Returns Run.start
  rw [hparse]
  dsimp only
  rw [hspec]

theorem answer_code (s : CommandLine.Stop) (c : Console) :
    (answer s c).1 = if s.isRefusal then 1 else 0 := by
  unfold answer
  dsimp only
  split <;> rfl

theorem giveUp_code (f : Failure) (c : Console) : (giveUp f c).1 = 1 := by
  cases f <;> rfl

theorem isRefusal_eq_false_iff {s : CommandLine.Stop} :
    s.isRefusal = false ↔ (∃ full, s = .help full) ∨ s = .version := by
  cases s <;> simp [CommandLine.Stop.isRefusal]

theorem exits_of_stop {s : CommandLine.Stop} (hparse : CommandLine.parse words = .error s) :
    Exits env words environment? c (if s.isRefusal then 1 else 0) (answer s c).2 := by
  unfold Exits
  rw [start_of_stop hparse, ← answer_code s c]

theorem exits_of_few {i : Invocation} (hparse : CommandLine.parse words = .ok i)
    (hfew : i.operands.length < 2) :
    Exits env words environment? c 1 (c.say Invocation.usage) := by
  unfold Exits
  rw [start_of_few hparse hfew]

/-- The three ways in which the program can exit. -/
theorem exits_cases {n : Nat} {after : Console} (h : Exits env words environment? c n after) :
    (∃ s, CommandLine.parse words = .error s ∧ n = if s.isRefusal then 1 else 0) ∨
    (∃ i, CommandLine.parse words = .ok i ∧ i.operands.length < 2 ∧ n = 1) ∨
    (∃ i, CommandLine.parse words = .ok i ∧ 2 ≤ i.operands.length ∧
      ((∃ d, Returns env i (withLog i environment? c) (.ok (), d) ∧ n = 0) ∨
        ∃ f d, Returns env i (withLog i environment? c) (.error f, d) ∧ n = 1)) := by
  cases hparse : CommandLine.parse words with
  | error s =>
    unfold Exits at h
    rw [start_of_stop hparse] at h
    refine Or.inl ⟨s, rfl, ?_⟩
    rw [← answer_code s c, h]
  | ok i =>
    rcases Nat.lt_or_ge i.operands.length 2 with hfew | hmany
    · unfold Exits at h
      rw [start_of_few hparse hfew] at h
      exact Or.inr (Or.inl ⟨i, rfl, hfew, (congrArg Prod.fst h).symm⟩)
    · obtain ⟨⟨result, d⟩, hreturns, hclose⟩ := (exits_iff_of_many hparse hmany).mp h
      refine Or.inr (Or.inr ⟨i, rfl, hmany, ?_⟩)
      cases result with
      | ok => exact Or.inl ⟨d, hreturns, (congrArg Prod.fst hclose).symm⟩
      | error f =>
        refine Or.inr ⟨f, d, hreturns, ?_⟩
        rw [← giveUp_code f d]
        exact (congrArg Prod.fst hclose).symm

/-- What is answered on the output never contains the completion line: no text of the help or the
version has the character with which that line begins. -/
theorem completionLine_not_answered {s : CommandLine.Stop} (hs : s.isRefusal = false) :
    ¬ Bytes.ofString completionLine <:+: Bytes.ofString s.message := by
  intro hinfix
  have hmark : (64 : UInt8) ∈ Bytes.ofString s.message := hinfix.subset (by decide +kernel)
  rcases isRefusal_eq_false_iff.mp hs with ⟨full, rfl⟩ | rfl
  · cases full <;> exact absurd hmark (by decide +kernel)
  · exact absurd hmark (by decide +kernel)

/-- The program exits with zero exactly if the help or the version is asked for, or there is
something to watch and something to do and the run succeeds. -/
theorem exits_zero_iff :
    (∃ after, Exits env words environment? c 0 after) ↔
      (∃ full, CommandLine.parse words = .error (.help full)) ∨
      CommandLine.parse words = .error .version ∨
      ∃ i d, CommandLine.parse words = .ok i ∧ 2 ≤ i.operands.length ∧
        Returns env i (withLog i environment? c) (.ok (), d) := by
  constructor
  · rintro ⟨after, h⟩
    rcases exits_cases h with ⟨s, hparse, hcode⟩ | ⟨i, -, -, hcode⟩ | ⟨i, hparse, hmany, hend⟩
    · have hs : s.isRefusal = false := by
        by_contra hne
        simp [hne] at hcode
      rcases isRefusal_eq_false_iff.mp hs with ⟨full, rfl⟩ | rfl
      · exact Or.inl ⟨full, hparse⟩
      · exact Or.inr (Or.inl hparse)
    · omega
    · rcases hend with ⟨d, hreturns, -⟩ | ⟨_, _, -, hcode⟩
      · exact Or.inr (Or.inr ⟨i, d, hparse, hmany, hreturns⟩)
      · omega
  · rintro (⟨full, hparse⟩ | hparse | ⟨i, d, hparse, hmany, hreturns⟩)
    · exact ⟨_, exits_of_stop hparse⟩
    · exact ⟨_, exits_of_stop hparse⟩
    · exact ⟨_, (exits_iff_of_many hparse hmany).mpr ⟨_, hreturns, rfl⟩⟩

/-- The program exits with one exactly if the words are refused, a path or a command is missing, or
the run fails. -/
theorem exits_one_iff :
    (∃ after, Exits env words environment? c 1 after) ↔
      (∃ s, CommandLine.parse words = .error s ∧ s.isRefusal) ∨
      (∃ i, CommandLine.parse words = .ok i ∧ i.operands.length < 2) ∨
      ∃ i f d, CommandLine.parse words = .ok i ∧ 2 ≤ i.operands.length ∧
        Returns env i (withLog i environment? c) (.error f, d) := by
  constructor
  · rintro ⟨after, h⟩
    rcases exits_cases h with ⟨s, hparse, hcode⟩ | ⟨i, hparse, hfew, -⟩ | ⟨i, hparse, hmany, hend⟩
    · refine Or.inl ⟨s, hparse, ?_⟩
      by_contra hne
      simp [hne] at hcode
    · exact Or.inr (Or.inl ⟨i, hparse, hfew⟩)
    · rcases hend with ⟨_, -, hcode⟩ | ⟨f, d, hreturns, -⟩
      · omega
      · exact Or.inr (Or.inr ⟨i, f, d, hparse, hmany, hreturns⟩)
  · rintro (⟨s, hparse, hs⟩ | ⟨i, hparse, hfew⟩ | ⟨i, f, d, hparse, hmany, hreturns⟩)
    · exact ⟨_, by simpa only [hs, if_true] using exits_of_stop hparse⟩
    · exact ⟨_, exits_of_few hparse hfew⟩
    · exact ⟨_, (exits_iff_of_many hparse hmany).mpr ⟨_, hreturns, Prod.ext (giveUp_code f d) rfl⟩⟩

/-- What the program exits with, in any surroundings: zero if the help or the version is asked for,
or if there is something to watch and something to do and the run succeeds; one whenever it exits
otherwise. If the words give no invocation, or there are fewer than two operands, then no run
begins, whatever a scan would have seen and a command would have done, and the console shows one
text more: the refusal or the usage among the messages, or the help or the version on the output,
where it is not mistaken for the completion line. And all this is said of the program itself: it
exits, and watching returns, as it answers within some bound on its cycles. -/
theorem exit_code (env : Surroundings Console) (words : List Bytes) (environment? : Option Bytes)
    (c : Console) :
    ((∃ after, Exits env words environment? c 0 after) ↔
      (∃ full, CommandLine.parse words = .error (.help full)) ∨
      CommandLine.parse words = .error .version ∨
      ∃ i d, CommandLine.parse words = .ok i ∧ 2 ≤ i.operands.length ∧
        Returns env i (withLog i environment? c) (.ok (), d)) ∧
    ((∃ after, Exits env words environment? c 1 after) ↔
      (∃ s, CommandLine.parse words = .error s ∧ s.isRefusal) ∨
      (∃ i, CommandLine.parse words = .ok i ∧ i.operands.length < 2) ∨
      ∃ i f d, CommandLine.parse words = .ok i ∧ 2 ≤ i.operands.length ∧
        Returns env i (withLog i environment? c) (.error f, d)) ∧
    (∀ n after, Exits env words environment? c n after →
      (n = 0 ∨ n = 1) ∧
      ∀ m d, Exits env words environment? c m d → m = n ∧ d = after) ∧
    (∀ s, CommandLine.parse words = .error s → s.isRefusal →
      start env words environment? c =
        .inl (1, { c with messages := c.messages ++ Bytes.ofString s.message })) ∧
    (∀ s, CommandLine.parse words = .error s → ¬ s.isRefusal →
      start env words environment? c =
        .inl (0, if c.isFull then c
          else { c with output := c.output ++ Bytes.ofString s.message }) ∧
      ¬ Bytes.ofString completionLine <:+: Bytes.ofString s.message) ∧
    (∀ i, CommandLine.parse words = .ok i → i.operands.length < 2 →
      start env words environment? c =
        .inl (1, { c with
          messages := c.messages ++ Bytes.ofString (Invocation.usage ++ "\n") })) ∧
    (∀ i d e, Returns env i d e ↔ ∃ bound, watchWithin env bound i d = some e) ∧
    (∀ n after, Exits env words environment? c n after ↔
      ∃ bound, runWithin env bound words environment? c = some (n, after)) ∧
    ∀ n after, run words environment? c = some (n, after) →
      Exits Console.surroundings words environment? c n after := by
  refine ⟨exits_zero_iff, exits_one_iff, fun n after h => ⟨?_, fun m d h' => h'.unique h⟩,
    fun s hparse hs => ?_, fun s hparse hs => ⟨?_, ?_⟩, fun i hparse hfew => ?_,
    fun i d e => returns_iff, fun n after => exits_iff,
    fun n after h => exits_iff.mpr ⟨cycleBound, h⟩⟩
  · rcases exits_cases h with ⟨s, -, hcode⟩ | ⟨_, -, -, hcode⟩ | ⟨_, -, -, hend⟩
    · cases hs : s.isRefusal
      · exact Or.inl (by simpa [hs] using hcode)
      · exact Or.inr (by simpa [hs] using hcode)
    · exact Or.inr hcode
    · rcases hend with ⟨_, -, hcode⟩ | ⟨_, _, -, hcode⟩
      · exact Or.inl hcode
      · exact Or.inr hcode
  · rw [start_of_stop hparse, answer, if_pos hs]
  · rw [start_of_stop hparse, answer, if_neg hs, Console.print]
    cases c.isFull <;> rfl
  · exact completionLine_not_answered (by simpa using hs)
  · exact start_of_few hparse hfew

end Program

end PollWatch
