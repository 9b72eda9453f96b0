import PollWatch.Proofs.Session.History

/-!
# The books of a history

A poll that runs the command has three effects: the command counts as run, its
line is written, and the time is remembered. A crash of the command stops before
the second, a refused line at the second, a line that cannot be flushed before
the third. The books say that nothing else ever happens:

> `balanced_after`: over every history, commands run = polls triggered + lines
> refused + flushes refused + crashes; lines written = polls triggered + flushes
> refused; and the time remembered is that of the last triggered poll.

Each account is kept by one poll (`Polled.commands`, `Polled.output`,
`Polled.linked`) and therefore by all of them (`commands_after`, `output_after`,
`linked_after`).
-/

namespace PollWatch

namespace PollRecord

/-- The poll ran the command and remembered the time. -/
def isTriggered (r : PollRecord) : Bool :=
  match r.result with
  | .ok p => p.isTriggered
  | .error _ => false

/-- The command was run, and its line was not taken. -/
def isLineRefused (r : PollRecord) : Bool :=
  match r.result with
  | .error (.failed (.io (.refused text))) => text == "write refused"
  | _ => false

/-- The command was run, and its line was written but could not be flushed. -/
def isFlushRefused (r : PollRecord) : Bool :=
  match r.result with
  | .error (.failed (.io (.refused text))) => text == "flush refused"
  | _ => false

/-- The command crashed. -/
def isCrashed (r : PollRecord) : Bool :=
  match r.result with
  | .error (.crashed _) => true
  | _ => false

/-- The previous and the current time of a triggered poll. -/
def change? (r : PollRecord) : Option (Timestamp × Timestamp) :=
  match r.result with
  | .ok (.triggered previous current _) => some (previous, current)
  | _ => none

end PollRecord

/-- How many polls ended in each of the ways that run the command. -/
structure Tally where
  triggered : Nat
  lineRefused : Nat
  flushRefused : Nat
  crashed : Nat

namespace Tally

/-- The tally of some polls. -/
def of (records : List PollRecord) : Tally where
  triggered := records.countP PollRecord.isTriggered
  lineRefused := records.countP PollRecord.isLineRefused
  flushRefused := records.countP PollRecord.isFlushRefused
  crashed := records.countP PollRecord.isCrashed

/-- The runs of the command. -/
def runs (t : Tally) : Nat := t.triggered + t.lineRefused + t.flushRefused + t.crashed

/-- The completion lines written. -/
def lines (t : Tally) : Nat := t.triggered + t.flushRefused

theorem runs_of_append (a b : List PollRecord) :
    (of (a ++ b)).runs = (of a).runs + (of b).runs := by
  simp only [of, runs, List.countP_append]
  omega

theorem lines_of_append (a b : List PollRecord) :
    (of (a ++ b)).lines = (of a).lines + (of b).lines := by
  simp only [of, lines, List.countP_append]
  omega

end Tally

/-- The previous and current times of triggered polls, in order. -/
def changes (records : List PollRecord) : List (Timestamp × Timestamp) :=
  records.filterMap PollRecord.change?

/-- Changes that lead from one time to another, each starting where the one before it ended. -/
inductive Linked : Timestamp → List (Timestamp × Timestamp) → Timestamp → Prop
  | nil {t : Timestamp} : Linked t [] t
  | cons {s t u : Timestamp} {l : List (Timestamp × Timestamp)} :
      Linked t l u → Linked s ((s, t) :: l) u

theorem Linked.append {s t u : Timestamp} {k l : List (Timestamp × Timestamp)}
    (hk : Linked s k t) (hl : Linked t l u) : Linked s (k ++ l) u := by
  induction hk with
  | nil => exact hl
  | cons _ ih => exact .cons (ih hl)

/-- Linked changes end with the current time of the last one. -/
theorem Linked.eq_getLast {s u : Timestamp} {l : List (Timestamp × Timestamp)}
    (h : Linked s l u) : u = (l.getLast?.map Prod.snd).getD s := by
  induction h with
  | nil => rfl
  | @cons s t u l _ ih =>
    cases l with
    | nil => exact ih
    | cons p l =>
      rw [List.getLast?_cons_cons]
      rw [ih, List.getLast?_eq_some_getLast (List.cons_ne_nil p l)]
      rfl

theorem Linked.head_fst {s u : Timestamp} {l : List (Timestamp × Timestamp)}
    {p : Timestamp × Timestamp} (h : Linked s l u) (hp : l[0]? = some p) : p.1 = s := by
  cases h with
  | nil => exact absurd hp (by simp)
  | cons =>
    obtain rfl := Option.some.inj hp
    rfl

theorem Linked.fst_eq_snd {s u : Timestamp} {l : List (Timestamp × Timestamp)} (h : Linked s l u) :
    ∀ (i : Nat) {p q : Timestamp × Timestamp},
      l[i]? = some p → l[i + 1]? = some q → q.1 = p.2 := by
  induction h with
  | nil => exact fun i p q hp => absurd hp (by simp)
  | cons hrest ih =>
    intro i p q hp hq
    rw [List.getElem?_cons_succ] at hq
    cases i with
    | zero =>
      obtain rfl := Option.some.inj hp
      exact hrest.head_fst hq
    | succ i => exact ih i hp hq

namespace Session

/-! ## What one poll keeps -/

variable {s t : Session Stage} {r : Except Halt Poll}

theorem Polled.spec (h : s.Polled r t) : t.watch.toWatchSpec = s.watch.toWatchSpec := by
  cases h <;> rfl

/-- A poll leaves the surroundings alone, or runs the command. -/
theorem Polled.state_cases (h : s.Polled r t) :
    t.state = s.state ∨ ∃ lines, s.Ran lines t.state := by
  cases h with
  | died => exact Or.inl rfl
  | unchanged => exact Or.inl rfl
  | crashed _ hran => exact Or.inr ⟨0, hran⟩
  | lineRefused _ hran => exact Or.inr ⟨0, hran⟩
  | flushRefused _ hran => exact Or.inr ⟨1, hran⟩
  | triggered hran => exact Or.inr ⟨1, hran⟩

theorem Polled.script (h : s.Polled r t) : t.state.script = s.state.script := by
  rcases h.state_cases with hsame | ⟨lines, hran⟩
  · rw [hsame]
  · exact hran.script

theorem Polled.waits (h : s.Polled r t) : t.state.waits = s.state.waits := by
  rcases h.state_cases with hsame | ⟨lines, hran⟩
  · rw [hsame]
  · exact hran.waits

theorem Polled.signal (h : s.Polled r t) :
    t.state.signal = s.state.signal ∨ t.state.signal = s.state.signal.fire := by
  rcases h.state_cases with hsame | ⟨lines, hran⟩
  · exact Or.inl (by rw [hsame])
  · exact hran.signal

theorem Polled.dropped (h : s.Polled r t) :
    t.state.signal.dropped = s.state.signal.dropped := by
  rcases h.signal with hsame | hfire
  · rw [hsame]
  · rw [hfire]
    unfold Signal.fire
    split <;> rfl

theorem Polled.commands (h : s.Polled r t) :
    t.state.commands
      = s.state.commands ++ List.replicate (Tally.of [⟨s, r, t⟩]).runs s.watch.command := by
  cases h with
  | died => exact (List.append_nil _).symm
  | unchanged => exact (List.append_nil _).symm
  | crashed _ hran => exact hran.commands
  | lineRefused _ hran => exact hran.commands
  | flushRefused _ hran => exact hran.commands
  | triggered hran => exact hran.commands

theorem Polled.output (h : s.Polled r t) :
    t.state.output = s.state.output ++ completionLines (Tally.of [⟨s, r, t⟩]).lines := by
  have hnone := (append_completionLines_zero s.state.output).symm
  cases h with
  | died => exact hnone
  | unchanged => exact hnone
  | crashed _ hran => exact hran.output
  | lineRefused _ hran => exact hran.output
  | flushRefused _ hran => exact hran.output
  | triggered hran => exact hran.output

theorem Polled.linked (h : s.Polled r t) :
    Linked s.watch.previous (changes [⟨s, r, t⟩]) t.watch.previous := by
  cases h with
  | triggered => exact .cons .nil
  | _ => exact .nil

/-- Only a triggered poll touches what the watch remembers. -/
theorem Polled.watch_of_not_triggered (h : s.Polled r t)
    (hnot : (⟨s, r, t⟩ : PollRecord).isTriggered = false) : t.watch = s.watch := by
  cases h with
  | triggered => exact absurd hnot (by simp [PollRecord.isTriggered, Poll.isTriggered])
  | _ => rfl

/-- A poll whose scan dies fails for that reason and does nothing at all. -/
theorem Polled.of_dead (h : s.Polled r t) {f : Failure}
    (hdead : s.state.look s.watch.paths = .error f) : r = .error (.failed f) ∧ t = s := by
  have hlook := not_looks_of_dead hdead
  cases h with
  | died hdied =>
    obtain rfl := Except.error.inj (hdied.symm.trans hdead)
    exact ⟨rfl, rfl⟩
  | unchanged hlooks => exact absurd hlooks hlook
  | crashed _ hran => exact absurd hran.looks hlook
  | lineRefused _ hran => exact absurd hran.looks hlook
  | flushRefused _ hran => exact absurd hran.looks hlook
  | triggered hran => exact absurd hran.looks hlook

/-! ## What a history keeps -/

theorem step_spec (s : Session Stage) (e : Event) :
    (s.step e).watch.toWatchSpec = s.watch.toWatchSpec := by
  cases e with
  | poll => exact (poll_cases s).spec
  | change c =>
    obtain ⟨t, ht⟩ := changeTree_eq s c
    show (s.changeTree c).watch.toWatchSpec = _
    rw [ht]
  | recast script => rfl

theorem spec_after (s : Session Stage) (es : List Event) :
    (s.after es).watch.toWatchSpec = s.watch.toWatchSpec := by
  induction es generalizing s with
  | nil => rfl
  | cons e es ih => exact (ih (s.step e)).trans (step_spec s e)

theorem commands_step (s : Session Stage) (e : Event) :
    (s.step e).state.commands
      = s.state.commands ++ List.replicate (Tally.of (s.polled e)).runs s.watch.command := by
  cases e with
  | poll => exact (poll_cases s).commands
  | change c =>
    obtain ⟨t, ht⟩ := changeTree_eq s c
    show (s.changeTree c).state.commands = _
    rw [ht]
    exact (List.append_nil _).symm
  | recast script => exact (List.append_nil _).symm

theorem commands_after (s : Session Stage) (es : List Event) :
    (s.after es).state.commands
      = s.state.commands ++ List.replicate (Tally.of (s.polls es)).runs s.watch.command := by
  induction es generalizing s with
  | nil => exact (List.append_nil _).symm
  | cons e es ih =>
    -- the later polls run the same command, since no event changes the watch set
    have hcommand : (s.step e).watch.command = s.watch.command :=
      congrArg WatchSpec.command (step_spec s e)
    show ((s.step e).after es).state.commands = _
    rw [ih (s.step e), commands_step s e, hcommand, List.append_assoc,
      List.replicate_append_replicate, ← Tally.runs_of_append]
    rfl

theorem output_step (s : Session Stage) (e : Event) :
    (s.step e).state.output
      = s.state.output ++ completionLines (Tally.of (s.polled e)).lines := by
  have hnone := (append_completionLines_zero s.state.output).symm
  cases e with
  | poll => exact (poll_cases s).output
  | change c =>
    obtain ⟨t, ht⟩ := changeTree_eq s c
    show (s.changeTree c).state.output = _
    rw [ht]
    exact hnone
  | recast script => exact hnone

theorem output_after (s : Session Stage) (es : List Event) :
    (s.after es).state.output
      = s.state.output ++ completionLines (Tally.of (s.polls es)).lines := by
  induction es generalizing s with
  | nil => exact (String.append_empty).symm
  | cons e es ih =>
    show ((s.step e).after es).state.output = _
    rw [ih (s.step e), output_step s e, String.append_assoc, ← completionLines_add,
      ← Tally.lines_of_append]
    rfl

theorem linked_step (s : Session Stage) (e : Event) :
    Linked s.watch.previous (changes (s.polled e)) (s.step e).watch.previous := by
  cases e with
  | poll => exact (poll_cases s).linked
  | change c =>
    obtain ⟨t, ht⟩ := changeTree_eq s c
    show Linked _ _ (s.changeTree c).watch.previous
    rw [ht]
    exact .nil
  | recast script => exact .nil

theorem linked_after (s : Session Stage) (es : List Event) :
    Linked s.watch.previous (changes (s.polls es)) (s.after es).watch.previous := by
  induction es generalizing s with
  | nil => exact .nil
  | cons e es ih =>
    have happend := (linked_step s e).append (ih (s.step e))
    unfold changes at happend
    rw [← List.filterMap_append] at happend
    exact happend

/-- As long as no poll is triggered, the watch stays as it is. -/
theorem watch_after_of_not_triggered (s : Session Stage) (es : List Event)
    (hnot : ∀ r ∈ s.polls es, r.isTriggered = false) : (s.after es).watch = s.watch := by
  induction es generalizing s with
  | nil => rfl
  | cons e es ih =>
    have hstep : (s.step e).watch = s.watch := by
      cases e with
      | poll =>
        exact (poll_cases s).watch_of_not_triggered (hnot _ (List.mem_append_left _
          (List.mem_singleton.mpr rfl)))
      | change c =>
        obtain ⟨t, ht⟩ := changeTree_eq s c
        show (s.changeTree c).watch = _
        rw [ht]
      | recast script => rfl
    exact (ih (s.step e) (fun r hr => hnot r (List.mem_append_right _ hr))).trans hstep

/-! ## After a refusal -/

/-- A poll whose line was refused or could not be flushed had found a change, and its scan had
not died. -/
theorem Polled.ran_of_refused (h : s.Polled r t)
    (hrefused : (⟨s, r, t⟩ : PollRecord).isLineRefused = true ∨
      (⟨s, r, t⟩ : PollRecord).isFlushRefused = true) :
    (∃ found, s.state.look s.watch.paths = .ok found) ∧ s.newest ≠ s.watch.previous ∧
      t.watch = s.watch := by
  cases h with
  | lineRefused _ hran => exact ⟨hran.looks, hran.differs, rfl⟩
  | flushRefused _ hran => exact ⟨hran.looks, hran.differs, rfl⟩
  | _ => simp [PollRecord.isLineRefused, PollRecord.isFlushRefused] at hrefused

/-- A poll that finds a change runs the command, and if it is triggered it tells this change. -/
theorem Polled.of_differs (h : s.Polled r t)
    (hlook : ∃ found, s.state.look s.watch.paths = .ok found) (hne : s.newest ≠ s.watch.previous) :
    t.state.commands = s.state.commands ++ [s.watch.command] ∧
      ∀ previous current o, r = .ok (.triggered previous current o) →
        previous = s.watch.previous ∧ current = s.newest := by
  cases h with
  | died hdead => exact absurd hlook (not_looks_of_dead hdead)
  | unchanged _ hsame => exact absurd hsame hne
  | crashed _ hran => exact ⟨hran.commands, fun _ _ _ heq => absurd heq (by simp)⟩
  | lineRefused _ hran => exact ⟨hran.commands, fun _ _ _ heq => absurd heq (by simp)⟩
  | flushRefused _ hran => exact ⟨hran.commands, fun _ _ _ heq => absurd heq (by simp)⟩
  | triggered hran =>
    refine ⟨hran.commands, fun _ _ _ heq => ?_⟩
    obtain ⟨rfl, rfl, -⟩ := Poll.triggered.inj (Except.ok.inj heq)
    exact ⟨rfl, rfl⟩

/-- A poll of `u` does again what the poll of `s` did: it sees the same two times, runs the
command once more, and if it is triggered it tells these two times. -/
structure Repeats (s u : Session Stage) : Prop where
  observes : u.watch.observe u.newest = s.watch.observe s.newest
  differs : s.watch.observe s.newest = .changed s.watch.previous s.newest
  runs : u.record.after.state.commands = u.state.commands ++ [s.watch.command]
  tells : ∀ previous current o, u.record.result = .ok (.triggered previous current o) →
    previous = s.watch.previous ∧ current = s.newest

/-- After a refusal, and as long as no poll is triggered, a poll over the tree as it was then
repeats the poll that was refused. -/
theorem repeats_of_refused (s : Session Stage)
    (hrefused : s.record.isLineRefused = true ∨ s.record.isFlushRefused = true)
    (later : List Event) (hnot : ∀ q ∈ s.record.after.polls later, q.isTriggered = false)
    (htree : (s.record.after.after later).state.tree = s.state.tree)
    (hdeadly : (s.record.after.after later).state.script.deadly? = s.state.script.deadly?) :
    s.Repeats (s.record.after.after later) := by
  obtain ⟨⟨found, hfound⟩, hne, hwatch⟩ := (poll_cases s).ran_of_refused hrefused
  have hu : (s.record.after.after later).watch = s.watch :=
    (watch_after_of_not_triggered _ later hnot).trans hwatch
  generalize s.record.after.after later = u at hu htree hdeadly
  -- the same tree below the same paths, and the same time remembered
  have hnewest : u.newest = s.newest := by
    unfold newest
    rw [htree, hu]
  have hlook : u.state.look u.watch.paths = .ok found := by
    rw [← hfound, hu]
    unfold Stage.look
    rw [htree, hdeadly]
  have hdiffers : u.newest ≠ u.watch.previous := by
    rw [hnewest, hu]
    exact hne
  obtain ⟨hcommands, htells⟩ := (poll_cases u).of_differs ⟨found, hlook⟩ hdiffers
  rw [hu] at hcommands htells
  rw [hnewest] at htells
  refine ⟨by rw [hu, hnewest], ?_, hcommands, htells⟩
  unfold Watch.observe
  rw [if_neg hne]

/-! ## The balance -/

/-- The books of a session that started fresh, in terms of its polls so far. -/
structure Balanced (spec : WatchSpec) (records : List PollRecord) (s : Session Stage) : Prop where
  /-- A poll that is not triggered leaves the paths, the command and the time alone. -/
  untouched : ∀ r ∈ records, r.isTriggered = false → r.after.watch = r.before.watch
  /-- Paths and command are those of the start. -/
  watches : s.watch.toWatchSpec = spec
  /-- The runs of the command. -/
  commands : s.state.commands = List.replicate
    (records.countP PollRecord.isTriggered + records.countP PollRecord.isLineRefused
      + records.countP PollRecord.isFlushRefused + records.countP PollRecord.isCrashed)
    spec.command
  /-- The lines written. -/
  output : s.state.output = String.join (List.replicate
    (records.countP PollRecord.isTriggered + records.countP PollRecord.isFlushRefused)
    completionLine)
  /-- The time remembered is that of the last triggered poll. -/
  previous : s.watch.previous = ((changes records).getLast?.map Prod.snd).getD .zero
  /-- The first triggered poll starts from zero. -/
  first : ∀ p, (changes records)[0]? = some p → p.1 = .zero
  /-- Each triggered poll starts from the time of the one before it. -/
  linked : ∀ i p q, (changes records)[i]? = some p → (changes records)[i + 1]? = some q →
    q.1 = p.2
  /-- A poll whose scan dies fails for that reason, runs no command and writes nothing. -/
  dead : ∀ r ∈ records, ∀ f, r.before.state.look r.before.watch.paths = .error f →
    r.result = .error (.failed f) ∧ r.after = r.before
  /-- If the next poll is refused, the polls over an unchanged tree after it repeat it. -/
  repeats : s.record.isLineRefused = true ∨ s.record.isFlushRefused = true →
    ∀ later : List Event, (∀ q ∈ s.record.after.polls later, q.isTriggered = false) →
      (s.record.after.after later).state.tree = s.state.tree →
      (s.record.after.after later).state.script.deadly? = s.state.script.deadly? →
      s.Repeats (s.record.after.after later)

/-- **The books balance** after every history, whatever the runner, the stream and the deadly
paths do. -/
theorem balanced_after (spec : WatchSpec) (script : Script) (tree : FileTree) (es : List Event) :
    Balanced spec ((fresh spec script tree).polls es) ((fresh spec script tree).after es) where
  untouched r hr := (polled_of_mem_polls hr).watch_of_not_triggered
  watches := spec_after _ es
  commands := by
    rw [commands_after]
    rfl
  output := by
    rw [output_after]
    exact String.empty_append
  previous := (linked_after _ es).eq_getLast
  first _ := (linked_after _ es).head_fst
  linked i _ _ := (linked_after _ es).fst_eq_snd i
  dead r hr _ := (polled_of_mem_polls hr).of_dead
  repeats := repeats_of_refused _

end Session

end PollWatch
