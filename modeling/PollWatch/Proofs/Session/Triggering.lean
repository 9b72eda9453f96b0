import Mathlib
import PollWatch.Proofs.FileTree.Reachable
import PollWatch.Proofs.Session.Books

/-!
# A poll acts on every difference, and on nothing else

Number the polls of a history from one, and let `c i` be the newest time that the
tree holds when poll `i` starts, `c 0` being zero. As long as no scan dies, no
command crashes and every line is taken:

> `triggers_on_difference`: poll `i` is triggered if and only if `c i` differs from
> `c (i - 1)`, it tells these two times, and `c i` is what is remembered after it.

So the command has been run once for each difference. How the command ended does
not count, and a change that it makes to the tree is seen by the next poll: what
is remembered is the time from before the command.

The invariant is `previous_before_poll`: when a poll starts, the watch remembers
what the tree held when the poll before it started.
-/

namespace PollWatch

/-- The newest time that the tree held when the poll with this number started; zero before the
first poll. Polls are numbered from one. -/
def scanAt (paths : List Path) (records : List PollRecord) : Nat → Timestamp
  | 0 => .zero
  | i + 1 =>
    match records[i]? with
    | some r => r.before.state.tree.view.latest paths
    | none => .zero

/-- How many polls started from another newest time than the poll before them. -/
def differences (paths : List Path) (records : List PollRecord) : Nat :=
  (List.range records.length).countP fun i =>
    scanAt paths records (i + 1) ≠ scanAt paths records i

namespace Session

variable {s t : Session Stage} {r : Except Halt Poll}

/-- Nothing stands in the way of a poll: the scan does not die and, if there is a difference, the
command does not crash and its line is taken. -/
structure Unhindered (s : Session Stage) : Prop where
  looks : ∃ found, s.state.look s.watch.paths = .ok found
  performs : s.newest ≠ s.watch.previous →
    ∀ m, (s.state.perform s.watch.command).1 ≠ .crashed m
  announces : s.newest ≠ s.watch.previous →
    (s.state.perform s.watch.command).2.announce.1 = .ok ()

/-- An unhindered poll finds no difference, or acts on it and remembers it. -/
theorem Polled.of_unhindered (h : s.Polled r t) (hs : s.Unhindered) :
    t.watch.previous = s.newest ∧
      ((s.newest = s.watch.previous ∧ r = .ok .unchanged) ∨
        (s.newest ≠ s.watch.previous ∧
          ∃ o, r = .ok (.triggered s.watch.previous s.newest o))) := by
  cases h with
  | died hdead => exact absurd hs.looks (not_looks_of_dead hdead)
  | unchanged _ hsame => exact ⟨hsame.symm, Or.inl ⟨hsame, rfl⟩⟩
  | crashed hcrash hran => exact absurd hcrash (hs.performs hran.differs _)
  | lineRefused hrefused hran =>
    rw [hs.announces hran.differs] at hrefused
    exact absurd hrefused (by simp)
  | flushRefused hrefused hran =>
    rw [hs.announces hran.differs] at hrefused
    exact absurd hrefused (by simp)
  | triggered hran => exact ⟨rfl, Or.inr ⟨hran.differs, _, rfl⟩⟩

/-- In a history, each poll starts with the paths and the command of the start. -/
theorem spec_of_mem_polls {s : Session Stage} {es : List Event} {r : PollRecord}
    (hr : r ∈ s.polls es) : r.before.watch.toWatchSpec = s.watch.toWatchSpec := by
  obtain ⟨before, _, -, rfl⟩ := exists_of_mem_polls hr
  exact spec_after s before

/-- When a poll of an unhindered history starts, the watch remembers what the tree held when the
poll before it started. For the first poll that is what the watch remembered at the start. -/
theorem previous_before_poll {s : Session Stage} {es : List Event}
    (hes : ∀ r ∈ s.polls es, r.before.Unhindered) :
    (∀ r, (s.polls es)[0]? = some r → r.before.watch.previous = s.watch.previous) ∧
      ∀ i q r, (s.polls es)[i]? = some q → (s.polls es)[i + 1]? = some r →
        r.before.watch.previous = q.before.newest := by
  induction es generalizing s with
  | nil =>
    exact ⟨fun r hr => absurd hr (by simp [polls]),
      fun i q r hq => absurd hq (by simp [polls])⟩
  | cons e es ih =>
    have hrest : ∀ r ∈ (s.step e).polls es, r.before.Unhindered :=
      fun r hr => hes r (List.mem_append_right _ hr)
    obtain ⟨hfirst, hnext⟩ := ih hrest
    cases e with
    | poll =>
      have hs : s.Unhindered := hes _ (List.mem_append_left _ (List.mem_singleton.mpr rfl))
      obtain ⟨hprevious, -⟩ := (poll_cases s).of_unhindered hs
      refine ⟨fun r hr => ?_, fun i q r hq hr => ?_⟩
      · obtain rfl := Option.some.inj hr
        rfl
      · cases i with
        | zero =>
          obtain rfl := Option.some.inj hq
          exact (hfirst r hr).trans hprevious
        | succ i => exact hnext i q r hq hr
    | change c =>
      have hwatch : (s.step (.change c)).watch.previous = s.watch.previous := by
        obtain ⟨t, ht⟩ := changeTree_eq s c
        show (s.changeTree c).watch.previous = _
        rw [ht]
      exact ⟨fun r hr => (hfirst r hr).trans hwatch, hnext⟩
    | recast script => exact ⟨hfirst, hnext⟩

/-- A poll of a history looks for the newest time below the paths of the start. -/
theorem scanAt_succ {s : Session Stage} {es : List Event} {i : Nat} {r : PollRecord}
    (hr : (s.polls es)[i]? = some r) :
    scanAt s.watch.paths (s.polls es) (i + 1) = r.before.newest := by
  have hpaths : r.before.watch.paths = s.watch.paths :=
    congrArg WatchSpec.paths (spec_of_mem_polls (List.mem_of_getElem? hr))
  unfold newest
  rw [scanAt, hr, hpaths]

theorem scanAt_eq_previous {spec : WatchSpec} {script : Script} {tree : FileTree} {es : List Event}
    (hes : ∀ r ∈ (fresh spec script tree).polls es, r.before.Unhindered) {i : Nat}
    {r : PollRecord} (hr : ((fresh spec script tree).polls es)[i]? = some r) :
    scanAt spec.paths ((fresh spec script tree).polls es) i = r.before.watch.previous := by
  obtain ⟨hfirst, hnext⟩ := previous_before_poll hes
  cases i with
  | zero => exact (hfirst r hr).symm
  | succ i =>
    have hi : i < ((fresh spec script tree).polls es).length :=
      Nat.lt_of_succ_lt (List.getElem?_eq_some_iff.mp hr).1
    have hq := List.getElem?_eq_getElem hi
    rw [hnext i _ r hq hr]
    exact scanAt_succ hq

/-- In an unhindered history, the triggered polls are those that start from a difference. -/
theorem countP_isTriggered {spec : WatchSpec} {script : Script} {tree : FileTree} {es : List Event}
    (hes : ∀ r ∈ (fresh spec script tree).polls es, r.before.Unhindered) :
    ((fresh spec script tree).polls es).countP PollRecord.isTriggered
      = differences spec.paths ((fresh spec script tree).polls es) := by
  -- place by place: poll `i + 1` is triggered exactly if there is a difference at `i`
  have hmap : ((fresh spec script tree).polls es).map PollRecord.isTriggered
      = (List.range ((fresh spec script tree).polls es).length).map fun i =>
          decide (scanAt spec.paths ((fresh spec script tree).polls es) (i + 1)
            ≠ scanAt spec.paths ((fresh spec script tree).polls es) i) := by
    refine List.ext_getElem (by simp) fun i hi _ => ?_
    rw [List.length_map] at hi
    rw [List.getElem_map, List.getElem_map, List.getElem_range]
    have hr := List.getElem?_eq_getElem hi
    generalize ((fresh spec script tree).polls es)[i] = r at hr
    have hmem := List.mem_of_getElem? hr
    have hsucc : scanAt spec.paths _ (i + 1) = r.before.newest := scanAt_succ hr
    rw [hsucc, scanAt_eq_previous hes hr]
    obtain ⟨-, h | ⟨hne, o, hresult⟩⟩ :=
      (polled_of_mem_polls hmem).of_unhindered (hes r hmem)
    · obtain ⟨hsame, hresult⟩ := h
      simp [PollRecord.isTriggered, hresult, Poll.isTriggered, hsame]
    · simp [PollRecord.isTriggered, hresult, Poll.isTriggered, hne]
  have hcount : ∀ l : List PollRecord, l.countP PollRecord.isTriggered
      = (l.map PollRecord.isTriggered).countP id := by
    intro l
    rw [List.countP_map]
    rfl
  unfold differences
  rw [hcount, hmap, List.countP_map]
  rfl

/-- An unhindered history runs the command only in triggered polls. -/
theorem runs_of_unhindered {s : Session Stage} {es : List Event}
    (hes : ∀ r ∈ s.polls es, r.before.Unhindered) :
    (Tally.of (s.polls es)).runs = (s.polls es).countP PollRecord.isTriggered ∧
      (Tally.of (s.polls es)).lines = (s.polls es).countP PollRecord.isTriggered := by
  have hok : ∀ r ∈ s.polls es, ∃ p, r.result = .ok p := by
    intro r hr
    rcases ((polled_of_mem_polls hr).of_unhindered (hes r hr)).2 with ⟨-, h⟩ | ⟨-, o, h⟩
    · exact ⟨_, h⟩
    · exact ⟨_, h⟩
  have hline : (s.polls es).countP PollRecord.isLineRefused = 0 := by
    refine List.countP_eq_zero.mpr fun r hr => ?_
    obtain ⟨p, hp⟩ := hok r hr
    simp [PollRecord.isLineRefused, hp]
  have hflush : (s.polls es).countP PollRecord.isFlushRefused = 0 := by
    refine List.countP_eq_zero.mpr fun r hr => ?_
    obtain ⟨p, hp⟩ := hok r hr
    simp [PollRecord.isFlushRefused, hp]
  have hcrash : (s.polls es).countP PollRecord.isCrashed = 0 := by
    refine List.countP_eq_zero.mpr fun r hr => ?_
    obtain ⟨p, hp⟩ := hok r hr
    simp [PollRecord.isCrashed, hp]
  simp [Tally.runs, Tally.lines, Tally.of, hline, hflush, hcrash]

/-! ## Histories in which nothing goes wrong -/

end Session

/-- A script that refuses nothing, kills no scan and whose changes fit. -/
structure Script.Calm (script : Script) : Prop where
  line : script.refusesLine = []
  flush : script.refusesFlush = []
  deadly : script.deadly? = none
  effects : ∀ run ∈ script.runs, ∀ c ∈ run.effects, FileTree.Change.Fits c

theorem Stage.look_of_deadly_none {s : Stage} (h : s.script.deadly? = none) (paths : List Path) :
    s.look paths = .ok (s.tree.view.scan paths) := by
  unfold look
  rw [h]

theorem Stage.applyAll_of_fits {cs : List FileTree.Change} (h : ∀ c ∈ cs, FileTree.Change.Fits c)
    (t : FileTree) : (applyAll t cs).1 = .ok () := by
  induction cs generalizing t with
  | nil => rfl
  | cons c cs ih =>
    obtain ⟨u, hu⟩ := (h c (List.mem_cons_self ..)).apply t
    rw [applyAll, hu]
    exact ih (fun d hd => h d (List.mem_cons_of_mem _ hd)) u

namespace Session

theorem unhindered_of_calm {s : Session Stage} (h : s.state.script.Calm) : s.Unhindered where
  looks := ⟨_, Stage.look_of_deadly_none h.deadly _⟩
  performs _ m := by
    have hfits : ∀ c ∈ (s.state.script.runs.getD s.state.commands.length {}).effects,
        FileTree.Change.Fits c := by
      rw [List.getD_eq_getElem?_getD]
      cases hrun : s.state.script.runs[s.state.commands.length]? with
      | none => exact fun c hc => absurd hc (by simp)
      | some run => exact h.effects run (List.mem_of_getElem? hrun)
    have happly := Stage.applyAll_of_fits hfits s.state.tree
    unfold Stage.perform
    dsimp only
    split
    next e t he =>
      rw [he] at happly
      exact absurd happly (by simp)
    next => split <;> simp
  announces hne := by
    unfold Stage.announce
    have hscript := (ran_perform ⟨_, Stage.look_of_deadly_none h.deadly _⟩ hne).script
    rw [hscript, h.line, if_neg (List.not_mem_nil)]
    dsimp only
    rw [h.flush, if_neg (List.not_mem_nil)]

theorem calm_after {s : Session Stage} {es : List Event} (hs : s.state.script.Calm)
    (hes : ∀ script, .recast script ∈ es → script.Calm) : (s.after es).state.script.Calm := by
  induction es generalizing s with
  | nil => exact hs
  | cons e es ih =>
    refine ih ?_ (fun script h => hes script (List.mem_cons_of_mem _ h))
    cases e with
    | poll =>
      show (poll Stage.surroundings s).2.state.script.Calm
      rw [(poll_cases s).script]
      exact hs
    | change c =>
      obtain ⟨t, ht⟩ := changeTree_eq s c
      show (s.changeTree c).state.script.Calm
      rw [ht]
      exact hs
    | recast script => exact hes script (List.mem_cons_self ..)

/-- Where every script is calm, nothing stands in the way of any poll. -/
theorem unhindered_of_mem_polls {s : Session Stage} {es : List Event}
    (hs : s.state.script.Calm) (hes : ∀ script, .recast script ∈ es → script.Calm) :
    ∀ r ∈ s.polls es, r.before.Unhindered := by
  intro r hr
  obtain ⟨before, later, rfl, rfl⟩ := exists_of_mem_polls hr
  exact unhindered_of_calm
    (calm_after hs fun script h => hes script (List.mem_append_left _ h))

/-! ## Every difference, and nothing else -/

/-- **A poll acts on every difference and on nothing else.** Over every history of polls and
changes in which nothing stands in the way of a poll, poll `i + 1` is unchanged if it starts from
the newest time that poll `i` started from, and otherwise triggered with these two times. It
remembers the time that it started from. So many times the command was run, and so many lines were
written. -/
theorem triggers_on_difference (spec : WatchSpec) (script : Script) (tree : FileTree)
    (es : List Event) (hes : ∀ r ∈ (fresh spec script tree).polls es, r.before.Unhindered) :
    let s := fresh spec script tree
    let c := scanAt spec.paths (s.polls es)
    let n := differences spec.paths (s.polls es)
    (∀ i r, (s.polls es)[i]? = some r →
      (r.result = .ok .unchanged ↔ c (i + 1) = c i) ∧
      (c (i + 1) ≠ c i → ∃ o, r.result = .ok (.triggered (c i) (c (i + 1)) o)) ∧
      r.after.watch.previous = c (i + 1)) ∧
    (s.after es).state.commands = List.replicate n spec.command ∧
    (s.after es).state.output = String.join (List.replicate n completionLine) := by
  intro s c n
  obtain ⟨hruns, hlines⟩ := runs_of_unhindered hes
  have hn : (s.polls es).countP PollRecord.isTriggered = n := countP_isTriggered hes
  refine ⟨fun i r hr => ?_, ?_, ?_⟩
  · have hmem := List.mem_of_getElem? hr
    have hsucc : c (i + 1) = r.before.newest := scanAt_succ hr
    have hprev : c i = r.before.watch.previous := scanAt_eq_previous hes hr
    rw [hsucc, hprev]
    obtain ⟨hprevious, h | ⟨hne, o, hresult⟩⟩ :=
      (polled_of_mem_polls hmem).of_unhindered (hes r hmem)
    · obtain ⟨hsame, hresult⟩ := h
      exact ⟨⟨fun _ => hsame, fun _ => hresult⟩, fun hne => absurd hsame hne, hprevious⟩
    · refine ⟨⟨fun h => ?_, fun hsame => absurd hsame hne⟩, fun _ => ⟨o, hresult⟩, hprevious⟩
      rw [hresult] at h
      exact absurd h (by simp)
  · rw [commands_after, hruns, hn]
    rfl
  · rw [output_after, hlines, hn]
    exact String.empty_append

/-- A file `w/a` of five seconds. -/
def oneFile : FileTree := FileTree.new.insert (.ofBytes [119, 47, 97]) (.file 5 true)

/-- The first run of the command cannot be started, and `w/a` changes meanwhile. -/
def restless : Script where
  runs := [⟨none, [.setModified (.ofBytes [119, 47, 97]) 9], false⟩]

/-- Three polls, a step back in time, and a fourth. -/
def fourPolls : List Event :=
  [.poll, .poll, .poll, .change (.setModified (.ofBytes [119, 47, 97]) 2), .poll]

/-- The change that was made while the command ran is acted on, and so is the step back. -/
theorem triggers_on_difference_restless :
    (∀ r ∈ (fresh ⟨[.ofBytes [119]], "make"⟩ restless oneFile).polls fourPolls,
        r.before.Unhindered) ∧
      ((fresh ⟨[.ofBytes [119]], "make"⟩ restless oneFile).after fourPolls).state.commands
        = ["make", "make", "make"] := by
  have hcalm : restless.Calm :=
    ⟨rfl, rfl, rfl, by simp [restless, FileTree.Change.Fits, FileTree.maxSeconds]⟩
  have hes : ∀ r ∈ (fresh ⟨[.ofBytes [119]], "make"⟩ restless oneFile).polls fourPolls,
      r.before.Unhindered :=
    unhindered_of_mem_polls hcalm (by simp [fourPolls])
  refine ⟨hes, ?_⟩
  rw [(triggers_on_difference _ _ _ _ hes).2.1]
  cbv

end Session

end PollWatch
