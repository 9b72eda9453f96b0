import PollWatch.Session.Scripted

/-!
# Polls over a changing tree

A history of a session is a list of events: polls, and between them changes of
the tree from outside. What a poll can come to is said once, with everything it
does to the session:

> `poll_cases`: a poll dies in the scan, finds no change, or runs the command;
> then the command crashes, or its line is refused, or the line cannot be
> flushed, or the poll is complete. Only a complete poll remembers its time.

What histories do follows from this list by induction on the events.

Between two polls the script may be exchanged as well, so what the runner does,
which lines are refused and which path is deadly may depend in any way on what
went before.
-/

namespace PollWatch

/-- What can happen to a session from one moment to the next. -/
inductive Event where
  /-- The session polls. -/
  | poll
  /-- The tree is changed from outside. A change that overflows changes nothing. -/
  | change (c : FileTree.Change)
  /-- The surroundings follow another script from now on. -/
  | recast (script : Script)

/-- A poll with the session before and after it. -/
structure PollRecord where
  before : Session Stage
  result : Except Halt Poll
  after : Session Stage

/-- That many completion lines. -/
def completionLines (n : Nat) : String := String.join (List.replicate n completionLine)

theorem append_completionLines_zero (s : String) : s ++ completionLines 0 = s :=
  String.append_empty

theorem completionLines_succ (n : Nat) :
    completionLines (n + 1) = completionLines n ++ completionLine := by
  unfold completionLines String.join
  rw [List.replicate_succ', List.foldl_append]
  rfl

theorem completionLines_add (m n : Nat) :
    completionLines (m + n) = completionLines m ++ completionLines n := by
  induction n with
  | zero => rw [Nat.add_zero, append_completionLines_zero]
  | succ n ih =>
    rw [← Nat.add_assoc, completionLines_succ, ih, completionLines_succ, String.append_assoc]

namespace Session

/-- A session that has not polled yet. -/
def fresh (spec : WatchSpec) (script : Script) (tree : FileTree) : Session Stage :=
  ⟨{ toWatchSpec := spec }, { script := script, tree := tree }⟩

/-- The newest modification time in the watch set of a session, as the tree is now. -/
def newest (s : Session Stage) : Timestamp := s.state.tree.view.latest s.watch.paths

/-- The tree of a session after a change from outside. -/
def changeTree (s : Session Stage) (c : FileTree.Change) : Session Stage :=
  match s.state.tree.apply c with
  | .ok t => ⟨s.watch, { s.state with tree := t }⟩
  | .error _ => s

/-- The session after one event. -/
def step (s : Session Stage) : Event → Session Stage
  | .poll => (poll Stage.surroundings s).2
  | .change c => s.changeTree c
  | .recast script => ⟨s.watch, { s.state with script := script }⟩

/-- The session after a history. -/
def after (s : Session Stage) : List Event → Session Stage
  | [] => s
  | e :: es => (s.step e).after es

/-- The poll of a session, as a record. -/
def record (s : Session Stage) : PollRecord :=
  ⟨s, (poll Stage.surroundings s).1, (poll Stage.surroundings s).2⟩

/-- The poll in an event, if it is one. -/
def polled (s : Session Stage) : Event → List PollRecord
  | .poll => [s.record]
  | _ => []

/-- The polls of a history, in their order. -/
def polls (s : Session Stage) : List Event → List PollRecord
  | [] => []
  | e :: es => s.polled e ++ (s.step e).polls es

/-! ## What one poll can come to -/

/-- The scan of `s` found a change and the command was run, which led to `stage`; so many
completion lines were written after it. The script, the count of waits and the fate of the
trigger are left alone, and the stop signal may have fired. -/
structure Ran (s : Session Stage) (lines : Nat) (stage : Stage) : Prop where
  looks : ∃ found, s.state.look s.watch.paths = .ok found
  differs : s.newest ≠ s.watch.previous
  commands : stage.commands = s.state.commands ++ [s.watch.command]
  output : stage.output = s.state.output ++ completionLines lines
  script : stage.script = s.state.script
  waits : stage.waits = s.state.waits
  signal : stage.signal = s.state.signal ∨ stage.signal = s.state.signal.fire

/-- The results of a poll from `s`, and the session after each. -/
inductive Polled (s : Session Stage) : Except Halt Poll → Session Stage → Prop
  | died : s.state.look s.watch.paths = .error (.other "the scan died" []) →
      Polled s (.error (.failed (.other "the scan died" []))) s
  | unchanged : (∃ found, s.state.look s.watch.paths = .ok found) →
      s.newest = s.watch.previous → Polled s (.ok .unchanged) s
  | crashed {m : String} {stage : Stage} :
      (s.state.perform s.watch.command).1 = .crashed m → s.Ran 0 stage →
      Polled s (.error (.crashed m)) ⟨s.watch, stage⟩
  | lineRefused {stage : Stage} :
      (s.state.perform s.watch.command).2.announce.1 = .error (.refused "write refused") →
      s.Ran 0 stage →
      Polled s (.error (.failed (.io (.refused "write refused")))) ⟨s.watch, stage⟩
  | flushRefused {stage : Stage} :
      (s.state.perform s.watch.command).2.announce.1 = .error (.refused "flush refused") →
      s.Ran 1 stage →
      Polled s (.error (.failed (.io (.refused "flush refused")))) ⟨s.watch, stage⟩
  | triggered {o : Outcome} {stage : Stage} : s.Ran 1 stage →
      Polled s (.ok (.triggered s.watch.previous s.newest o)) ⟨s.watch.commit s.newest, stage⟩

end Session

namespace Stage

/-- A scan dies of one cause only, and otherwise it sees the tree as it is. -/
theorem look_cases (s : Stage) (paths : List Path) :
    s.look paths = .error (.other "the scan died" []) ∨
      s.look paths = .ok (s.tree.view.scan paths) := by
  unfold look
  dsimp only
  split
  next => exact Or.inr rfl
  next =>
    split
    next => exact Or.inl rfl
    next => exact Or.inr rfl

/-- The completion line is refused, or cannot be flushed, or is there. -/
theorem announce_cases (s : Stage) :
    s.announce = (.error (.refused "write refused"), s) ∨
      (s.announce = (.error (.refused "flush refused"),
          { s with output := s.output ++ completionLine }) ∨
        s.announce = (.ok (), { s with output := s.output ++ completionLine })) := by
  unfold announce
  split
  next => exact Or.inl rfl
  next =>
    dsimp only
    split
    next => exact Or.inr (Or.inl rfl)
    next => exact Or.inr (Or.inr rfl)

end Stage

namespace Session

theorem newest_eq_latestOf (s : Session Stage) :
    s.newest = latestOf (s.state.tree.view.scan s.watch.paths) :=
  latest_ofFindings _

/-- However a run of the command ends, it counts as run and writes no line itself. -/
theorem ran_perform {s : Session Stage}
    (hlook : ∃ found, s.state.look s.watch.paths = .ok found) (hne : s.newest ≠ s.watch.previous) :
    s.Ran 0 (s.state.perform s.watch.command).2 := by
  have hsame := (append_completionLines_zero s.state.output).symm
  unfold Stage.perform
  dsimp only
  split
  next =>
    -- the crash comes before the signal could fire
    exact ⟨hlook, hne, rfl, hsame, rfl, rfl, Or.inl rfl⟩
  next =>
    have hsignal : ∀ b : Bool, (if b then s.state.signal.fire else s.state.signal)
        = s.state.signal ∨ (if b then s.state.signal.fire else s.state.signal)
          = s.state.signal.fire := by
      intro b
      cases b
      · exact Or.inl rfl
      · exact Or.inr rfl
    split
    next => exact ⟨hlook, hne, rfl, hsame, rfl, rfl, hsignal _⟩
    next => exact ⟨hlook, hne, rfl, hsame, rfl, rfl, hsignal _⟩

/-- The second half of a poll, from the stage that the command left. -/
theorem complete_cases {s : Session Stage} {stage : Stage} (o : Outcome)
    (hstage : (s.state.perform s.watch.command).2 = stage) (h : s.Ran 0 stage) :
    s.Polled (complete Stage.surroundings s.watch s.newest o stage).1
      (complete Stage.surroundings s.watch s.newest o stage).2 := by
  have hline : s.Ran 1 { stage with output := stage.output ++ completionLine } := by
    refine ⟨h.looks, h.differs, h.commands, ?_, h.script, h.waits, h.signal⟩
    show stage.output ++ completionLine = _
    rw [h.output, append_completionLines_zero]
    rfl
  unfold complete Stage.surroundings
  dsimp only
  rcases stage.announce_cases with ha | ha | ha
  · rw [ha]
    exact .lineRefused (by rw [hstage, ha]) h
  · rw [ha]
    exact .flushRefused (by rw [hstage, ha]) hline
  · rw [ha]
    exact .triggered hline

/-- The part of a poll that follows a change. -/
theorem act_cases {s : Session Stage}
    (hlook : ∃ found, s.state.look s.watch.paths = .ok found) (hne : s.newest ≠ s.watch.previous) :
    s.Polled (act Stage.surroundings s.watch s.newest s.state).1
      (act Stage.surroundings s.watch s.newest s.state).2 := by
  have hran := ran_perform hlook hne
  unfold act Stage.surroundings
  dsimp only
  cases hperform : s.state.perform s.watch.command with
  | mk result stage =>
    rw [hperform] at hran
    cases result with
    | crashed m => exact .crashed (by rw [hperform]) hran
    | ended o => exact complete_cases o (by rw [hperform]) hran
    | notRun f =>
      -- a command that could not be run has an outcome all the same
      exact complete_cases (.spawnFailed f.message) (by rw [hperform]) hran

theorem not_looks_of_dead {s : Session Stage} {f : Failure}
    (hdead : s.state.look s.watch.paths = .error f) :
    ¬ ∃ found, s.state.look s.watch.paths = .ok found := by
  rintro ⟨found, hfound⟩
  rw [hdead] at hfound
  cases hfound

/-- A scan that does not die sees the tree as it is. -/
theorem look_eq_scan {s : Session Stage}
    (hlook : ∃ found, s.state.look s.watch.paths = .ok found) :
    s.state.look s.watch.paths = .ok (s.state.tree.view.scan s.watch.paths) := by
  rcases Stage.look_cases s.state s.watch.paths with hdead | hscan
  · exact absurd hlook (not_looks_of_dead hdead)
  · exact hscan

theorem poll_of_dead {s : Session Stage} {f : Failure}
    (hlook : s.state.look s.watch.paths = .error f) :
    poll Stage.surroundings s = (.error (.failed f), s) := by
  unfold poll Stage.surroundings
  dsimp only
  rw [hlook]

theorem poll_of_same {s : Session Stage}
    (hlook : ∃ found, s.state.look s.watch.paths = .ok found)
    (hsame : s.newest = s.watch.previous) :
    poll Stage.surroundings s = (.ok .unchanged, s) := by
  unfold poll Stage.surroundings
  dsimp only
  rw [look_eq_scan hlook]
  dsimp only
  rw [← newest_eq_latestOf, Watch.observe_eq_unchanged_iff.mpr hsame]

theorem poll_of_differs {s : Session Stage}
    (hlook : ∃ found, s.state.look s.watch.paths = .ok found)
    (hne : s.newest ≠ s.watch.previous) :
    poll Stage.surroundings s = act Stage.surroundings s.watch s.newest s.state := by
  have hscan : Stage.surroundings.look s.state s.watch.paths
      = .ok (s.state.tree.view.scan s.watch.paths) := look_eq_scan hlook
  unfold poll
  rw [hscan]
  dsimp only
  rw [← newest_eq_latestOf]
  unfold Watch.observe
  rw [if_neg hne]
  rfl

/-- **What a poll can come to**, with everything that it does to the session. -/
theorem poll_cases (s : Session Stage) :
    s.Polled (poll Stage.surroundings s).1 (poll Stage.surroundings s).2 := by
  rcases Stage.look_cases s.state s.watch.paths with hdead | hscan
  · rw [poll_of_dead hdead]
    exact .died hdead
  · by_cases hsame : s.newest = s.watch.previous
    · rw [poll_of_same ⟨_, hscan⟩ hsame]
      exact .unchanged ⟨_, hscan⟩ hsame
    · rw [poll_of_differs ⟨_, hscan⟩ hsame]
      exact act_cases ⟨_, hscan⟩ hsame

/-! ## Between polls -/

/-- A change from outside reaches nothing but the tree. -/
theorem changeTree_eq (s : Session Stage) (c : FileTree.Change) :
    ∃ t, s.changeTree c = ⟨s.watch, { s.state with tree := t }⟩ := by
  unfold changeTree
  split
  next t _ => exact ⟨t, rfl⟩
  next => exact ⟨s.state.tree, rfl⟩

theorem after_append (s : Session Stage) (es fs : List Event) :
    s.after (es ++ fs) = (s.after es).after fs := by
  induction es generalizing s with
  | nil => rfl
  | cons e es ih => exact ih (s.step e)

theorem polls_append (s : Session Stage) (es fs : List Event) :
    s.polls (es ++ fs) = s.polls es ++ (s.after es).polls fs := by
  induction es generalizing s with
  | nil => rfl
  | cons e es ih =>
    show s.polled e ++ (s.step e).polls (es ++ fs) = _
    rw [ih (s.step e), ← List.append_assoc]
    rfl

/-- A poll of a history is the poll of the session that the events before it lead to. -/
theorem exists_of_mem_polls {s : Session Stage} {es : List Event} {r : PollRecord}
    (hr : r ∈ s.polls es) :
    ∃ before later, es = before ++ .poll :: later ∧ r = (s.after before).record := by
  induction es generalizing s with
  | nil => exact absurd hr (by simp [polls])
  | cons e es ih =>
    rcases List.mem_append.mp hr with hr | hr
    · cases e with
      | poll => exact ⟨[], es, rfl, List.mem_singleton.mp hr⟩
      | change c => exact absurd hr (by simp [polled])
      | recast script => exact absurd hr (by simp [polled])
    · obtain ⟨before, later, rfl, rfl⟩ := ih hr
      exact ⟨e :: before, later, rfl, rfl⟩

theorem polled_of_mem_polls {s : Session Stage} {es : List Event} {r : PollRecord}
    (hr : r ∈ s.polls es) : r.before.Polled r.result r.after := by
  obtain ⟨before, _, -, rfl⟩ := exists_of_mem_polls hr
  exact poll_cases (s.after before)

end Session

end PollWatch
