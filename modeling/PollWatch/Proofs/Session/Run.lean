import Mathlib
import PollWatch.Proofs.Session.Books

/-!
# A run is so many polls

A run waits and polls in turn. Seen from outside it is the plain iteration of
polls, cut short: at the limit of cycles, when the stop signal has fired before a
wait is over, or by the first poll that fails.

> `run_refines_polls`: a run returns if and only if one of the three happens, and
> then it has done to the session what that many polls do, and counts them.

The waits are the only difference on the way. They change nothing but their own
count, which no poll reads (`poll_waited`), and the stop signal, whose firing
ends the run. So until it ends, a run stands where the plain iteration stands,
with as many waits behind it as polls (`cycle_of_cutsAt`, `cycle_of_not_cutsAt`).
-/

namespace PollWatch

namespace Signal

theorem fired_fire (s : Signal) : s.fire.fired = (s.fired || !s.dropped) := by
  unfold fire
  split
  next h => rw [h, Bool.not_true, Bool.or_false]
  next h => rw [Bool.eq_false_iff.mpr h, Bool.not_false, Bool.or_true]

theorem fire_of_dropped {s : Signal} (h : s.dropped = true) : s.fire = s := if_pos h

end Signal

namespace Stage

/-- The same stage with so many more waits behind it. -/
def waited (s : Stage) (n : Nat) : Stage := { s with waits := s.waits + n }

theorem perform_waited (command : String) (s : Stage) (n : Nat) :
    (s.waited n).perform command
      = ((s.perform command).1, (s.perform command).2.waited n) := by
  unfold perform waited
  dsimp only
  split
  next => rfl
  next => split <;> rfl

theorem announce_waited (s : Stage) (n : Nat) :
    (s.waited n).announce = (s.announce.1, s.announce.2.waited n) := by
  unfold announce waited
  dsimp only
  split
  next => rfl
  next => split <;> rfl

end Stage

namespace Session

/-- The same session with so many more waits behind it. -/
def waited (s : Session Stage) (n : Nat) : Session Stage := ⟨s.watch, s.state.waited n⟩

theorem complete_waited (w : Watch) (current : Timestamp) (o : Outcome) (s : Stage) (n : Nat) :
    complete Stage.surroundings w current o (s.waited n)
      = ((complete Stage.surroundings w current o s).1,
          (complete Stage.surroundings w current o s).2.waited n) := by
  unfold complete Stage.surroundings
  dsimp only
  rw [Stage.announce_waited]
  cases s.announce with
  | mk result after => cases result <;> rfl

theorem act_waited (w : Watch) (current : Timestamp) (s : Stage) (n : Nat) :
    act Stage.surroundings w current (s.waited n)
      = ((act Stage.surroundings w current s).1,
          (act Stage.surroundings w current s).2.waited n) := by
  unfold act Stage.surroundings
  dsimp only
  rw [Stage.perform_waited]
  cases s.perform w.command with
  | mk result after =>
    cases result with
    | crashed m => rfl
    | ended o => exact complete_waited w current o after n
    | notRun f => exact complete_waited w current (.spawnFailed f.message) after n

/-- No poll reads the count of waits. -/
theorem poll_waited (s : Session Stage) (n : Nat) :
    poll Stage.surroundings (s.waited n)
      = ((poll Stage.surroundings s).1, (poll Stage.surroundings s).2.waited n) := by
  rcases Stage.look_cases s.state s.watch.paths with hdead | hscan
  · rw [poll_of_dead hdead]
    exact poll_of_dead (s := s.waited n) hdead
  · by_cases hsame : s.newest = s.watch.previous
    · rw [poll_of_same ⟨_, hscan⟩ hsame]
      exact poll_of_same (s := s.waited n) ⟨_, hscan⟩ hsame
    · rw [poll_of_differs ⟨_, hscan⟩ hsame, ← act_waited]
      exact poll_of_differs (s := s.waited n) ⟨_, hscan⟩ hsame

/-! ## The plain iteration -/

/-- The session after so many polls, and nothing else. -/
def iterated (s : Session Stage) (n : Nat) : Session Stage := s.after (List.replicate n .poll)

/-- How many of so many polls are triggered. -/
def triggersIn (s : Session Stage) (n : Nat) : Nat :=
  (s.polls (List.replicate n .poll)).countP PollRecord.isTriggered

theorem iterated_succ (s : Session Stage) (n : Nat) :
    s.iterated (n + 1) = (s.iterated n).record.after := by
  unfold iterated
  rw [List.replicate_succ', after_append]
  rfl

theorem triggersIn_succ (s : Session Stage) (n : Nat) {p : Poll}
    (hp : (s.iterated n).record.result = .ok p) :
    s.triggersIn (n + 1) = s.triggersIn n + if p.isTriggered then 1 else 0 := by
  unfold triggersIn
  rw [List.replicate_succ', polls_append, List.countP_append]
  show _ + [(s.iterated n).record].countP PollRecord.isTriggered = _
  rw [List.countP_singleton]
  have htriggered : (s.iterated n).record.isTriggered = p.isTriggered := by
    unfold PollRecord.isTriggered
    rw [hp]
  rw [htriggered]

/-- What no poll changes. -/
theorem iterated_fields (s : Session Stage) (n : Nat) :
    (s.iterated n).state.script = s.state.script ∧ (s.iterated n).state.waits = s.state.waits ∧
      (s.iterated n).state.signal.dropped = s.state.signal.dropped := by
  induction n with
  | zero => exact ⟨rfl, rfl, rfl⟩
  | succ n ih =>
    have h := poll_cases (s.iterated n)
    obtain ⟨hscript, hwaits, hdropped⟩ := ih
    rw [iterated_succ]
    exact ⟨h.script.trans hscript, h.waits.trans hwaits, h.dropped.trans hdropped⟩

/-! ## Where a run is cut -/

/-- The stop signal has fired before the wait that follows poll `n` is over: before the run, in
one of the waits so far, or while one of the first `n` polls ran the command. -/
def Stopped (s : Session Stage) (n : Nat) : Prop :=
  (s.iterated n).state.signal.fired = true ∨
    (s.state.signal.dropped = false ∧
      ∃ j, j ≤ n ∧ s.state.script.stopsWait (s.state.waits + j) = true)

/-- A run ends after `n` polls if none fails: because it has a limit of no more cycles than that, or
by the stop signal. -/
def CutsAt (s : Session Stage) (o : Options) (n : Nat) : Prop :=
  (∃ m, o.maxCycles = some m ∧ m ≤ n) ∨ s.Stopped n

/-- A run gets past the first `n` polls: none of them fails, and it is not cut before any. -/
structure GoesOn (s : Session Stage) (o : Options) (n : Nat) : Prop where
  uncut : ∀ k, k < n → ¬ s.CutsAt o k
  succeeds : ∀ k, k < n → ∃ p, (s.iterated k).record.result = .ok p

theorem goesOn_zero (s : Session Stage) (o : Options) : s.GoesOn o 0 :=
  ⟨fun _ hk => absurd hk (Nat.not_lt_zero _), fun _ hk => absurd hk (Nat.not_lt_zero _)⟩

theorem GoesOn.succ {s : Session Stage} {o : Options} {n : Nat} {p : Poll} (h : s.GoesOn o n)
    (hcut : ¬ s.CutsAt o n) (hp : (s.iterated n).record.result = .ok p) :
    s.GoesOn o (n + 1) := by
  constructor
  · intro k hk
    rcases Nat.lt_succ_iff_lt_or_eq.mp hk with hlt | heq
    · exact h.uncut k hlt
    · exact heq ▸ hcut
  · intro k hk
    rcases Nat.lt_succ_iff_lt_or_eq.mp hk with hlt | heq
    · exact h.succeeds k hlt
    · exact ⟨p, heq ▸ hp⟩

theorem GoesOn.of_succ {s : Session Stage} {o : Options} {n : Nat} (h : s.GoesOn o (n + 1)) :
    s.GoesOn o n :=
  ⟨fun k hk => h.uncut k (Nat.lt_succ_of_lt hk), fun k hk => h.succeeds k (Nat.lt_succ_of_lt hk)⟩

/-- The same paths, command, remembered time, tree, runs of the command and output. The stop
signal and the number of waits may differ. -/
structure Like (s t : Session Stage) : Prop where
  watch : s.watch = t.watch
  tree : s.state.tree = t.state.tree
  commands : s.state.commands = t.state.commands
  output : s.state.output = t.state.output

theorem like_waited (s : Session Stage) (n : Nat) : (s.waited n).Like s := ⟨rfl, rfl, rfl, rfl⟩

/-- What a run comes to, in terms of the plain iteration of polls. -/
inductive RunsTo (s : Session Stage) (o : Options) : Except Halt Summary → Session Stage → Prop
  /-- The run gets past `n` polls and is cut there. -/
  | cut {n : Nat} {t : Session Stage} : s.GoesOn o n → s.CutsAt o n → t.Like (s.iterated n) →
      RunsTo s o (.ok ⟨n, s.triggersIn n⟩) t
  /-- The run gets past `n` polls, is not cut there, and the next poll fails. -/
  | failed {n : Nat} {h : Halt} {t : Session Stage} : s.GoesOn o n → ¬ s.CutsAt o n →
      (s.iterated n).record.result = .error h → t.Like (s.iterated (n + 1)) →
      RunsTo s o (.error h) t

/-! ## A run keeps step with the iteration -/

theorem stopsWait_iterated (s : Session Stage) (n : Nat) :
    (s.iterated n).state.script.stopsWait ((s.iterated n).state.waits + n)
      = s.state.script.stopsWait (s.state.waits + n) := by
  obtain ⟨hscript, hwaits, _⟩ := s.iterated_fields n
  rw [hscript, hwaits]

/-- A wait is cut short if the run is stopped there and was not stopped before. -/
theorem rest_of_stopped {s : Session Stage} {n : Nat} (hno : ∀ k, k < n → ¬ s.Stopped k)
    (hstop : s.Stopped n) (interval : Nat) :
    ∃ t, Stage.rest interval ((s.iterated n).waited n).state = (true, t) ∧
      Like ⟨(s.iterated n).watch, t⟩ (s.iterated n) := by
  obtain ⟨_, _, hdropped⟩ := s.iterated_fields n
  unfold Stage.rest waited Stage.waited
  dsimp only
  rw [stopsWait_iterated]
  refine ⟨_, Prod.ext ?_ rfl, rfl, rfl, rfl, rfl⟩
  show (if _ then _ else _ : Signal).fired = true
  rcases hstop with hfired | ⟨hlive, j, hj, hstops⟩
  · split
    next => rw [Signal.fired_fire, hfired, Bool.true_or]
    next => exact hfired
  · -- an earlier wait would have stopped the run before
    have hjn : j = n := by
      rcases Nat.lt_or_eq_of_le hj with hlt | heq
      · exact absurd (Or.inr ⟨hlive, j, Nat.le_refl j, hstops⟩) (hno j hlt)
      · exact heq
    rw [hjn] at hstops
    rw [if_pos hstops, Signal.fired_fire, hdropped, hlive, Bool.not_false, Bool.or_true]

/-- A wait that does not stop the run changes nothing but the count of waits. -/
theorem rest_of_not_stopped {s : Session Stage} {n : Nat} (hnot : ¬ s.Stopped n)
    (interval : Nat) :
    Stage.rest interval ((s.iterated n).waited n).state
      = (false, ((s.iterated n).waited (n + 1)).state) := by
  obtain ⟨_, _, hdropped⟩ := s.iterated_fields n
  unfold Stage.rest waited Stage.waited
  dsimp only
  rw [stopsWait_iterated]
  have hfired : (s.iterated n).state.signal.fired = false :=
    Bool.eq_false_iff.mpr fun h => hnot (Or.inl h)
  have hsignal : (if s.state.script.stopsWait (s.state.waits + n) = true
      then (s.iterated n).state.signal.fire else (s.iterated n).state.signal)
      = (s.iterated n).state.signal := by
    split
    next hstops =>
      -- only a trigger that was dropped can be told to fire here
      refine Signal.fire_of_dropped ?_
      rw [hdropped]
      cases hlive : s.state.signal.dropped with
      | true => rfl
      | false => exact absurd (Or.inr ⟨hlive, n, Nat.le_refl n, hstops⟩) hnot
    next => rfl
  rw [hsignal, hfired, Nat.add_assoc]

/-- The cycle in which a run is cut. -/
theorem cycle_of_cutsAt {s : Session Stage} {o : Options} {n : Nat} (hgoes : s.GoesOn o n)
    (hcut : s.CutsAt o n) :
    ∃ t, cycle Stage.surroundings o ⟨n, s.triggersIn n⟩ ((s.iterated n).waited n)
        = .over (.ok ⟨n, s.triggersIn n⟩, t) ∧ t.Like (s.iterated n) := by
  unfold cycle
  dsimp only
  by_cases hlimit : ∃ m, o.maxCycles = some m ∧ m ≤ n
  · rw [if_pos (Options.isLimit_iff.mpr hlimit)]
    exact ⟨_, rfl, like_waited (s.iterated n) n⟩
  · rw [if_neg (mt Options.isLimit_iff.mp hlimit)]
    obtain ⟨t, ht, hlike⟩ := rest_of_stopped (fun k hk h => hgoes.uncut k hk (Or.inr h))
      (hcut.resolve_left hlimit) o.intervalMs
    have hrest : Stage.surroundings.rest o.intervalMs ((s.iterated n).waited n).state
        = (true, t) := ht
    rw [hrest]
    exact ⟨_, rfl, hlike.watch, hlike.tree, hlike.commands, hlike.output⟩

/-- A cycle in which a run is not cut. -/
theorem cycle_of_not_cutsAt {s : Session Stage} {o : Options} {n : Nat}
    (hcut : ¬ s.CutsAt o n) :
    cycle Stage.surroundings o ⟨n, s.triggersIn n⟩ ((s.iterated n).waited n)
      = match (s.iterated n).record.result with
        | .error h => .over (.error h, (s.iterated (n + 1)).waited (n + 1))
        | .ok _ =>
          .underWay ⟨n + 1, s.triggersIn (n + 1)⟩ ((s.iterated (n + 1)).waited (n + 1)) := by
  have hrest : Stage.surroundings.rest o.intervalMs ((s.iterated n).waited n).state
      = (false, ((s.iterated n).waited (n + 1)).state) :=
    rest_of_not_stopped (fun hstop => hcut (Or.inr hstop)) o.intervalMs
  have hpoll : poll Stage.surroundings
      ⟨((s.iterated n).waited n).watch, ((s.iterated n).waited (n + 1)).state⟩
      = ((s.iterated n).record.result, (s.iterated n).record.after.waited (n + 1)) :=
    poll_waited _ _
  unfold cycle
  dsimp only
  rw [if_neg (fun hlimit => hcut (Or.inl (Options.isLimit_iff.mp hlimit))), hrest]
  dsimp only
  rw [hpoll, iterated_succ]
  cases hresult : (s.iterated n).record.result with
  | error h => rfl
  | ok p =>
    rw [triggersIn_succ s n hresult]
    rfl

/-- What is left of a run that stands where the iteration stands. -/
theorem runsTo_of_loop {s : Session Stage} {o : Options} {r : Except Halt Summary}
    {t : Session Stage} (fuel : Nat) :
    ∀ n, s.GoesOn o n → loop Stage.surroundings o fuel ⟨n, s.triggersIn n⟩
      ((s.iterated n).waited n) = some (r, t) → s.RunsTo o r t := by
  induction fuel with
  | zero =>
    intro n _ h
    cases h
  | succ fuel ih =>
    intro n hgoes h
    unfold loop at h
    by_cases hcut : s.CutsAt o n
    · obtain ⟨u, hcycle, hlike⟩ := cycle_of_cutsAt hgoes hcut
      rw [hcycle] at h
      cases h
      exact .cut hgoes hcut hlike
    · rw [cycle_of_not_cutsAt hcut] at h
      cases hresult : (s.iterated n).record.result with
      | error e =>
        rw [hresult] at h
        cases h
        exact .failed hgoes hcut hresult (like_waited _ _)
      | ok p =>
        rw [hresult] at h
        exact ih (n + 1) (hgoes.succ hcut hresult) h

/-- A run that gets past `n` polls comes to stand where the iteration stands. -/
theorem loop_of_goesOn {s : Session Stage} {o : Options} {n : Nat} :
    ∀ fuel, s.GoesOn o n → loop Stage.surroundings o (fuel + n) {} s
      = loop Stage.surroundings o fuel ⟨n, s.triggersIn n⟩ ((s.iterated n).waited n) := by
  induction n with
  | zero => exact fun _ _ => rfl
  | succ n ih =>
    intro fuel hgoes
    obtain ⟨p, hp⟩ := hgoes.succeeds n (Nat.lt_succ_self n)
    -- the first `n` cycles by the induction hypothesis, then one more
    rw [← Nat.add_assoc, Nat.add_right_comm, ih (fuel + 1) hgoes.of_succ]
    conv => lhs; unfold loop
    rw [cycle_of_not_cutsAt (hgoes.uncut n (Nat.lt_succ_self n)), hp]

/-- A run that is cut or fails returns. -/
theorem exists_run_of_runsTo {s : Session Stage} {o : Options} {r : Except Halt Summary}
    {t : Session Stage} (h : s.RunsTo o r t) :
    ∃ fuel u, run Stage.surroundings o fuel s = some (r, u) := by
  cases h with
  | @cut n _ hgoes hcut _ =>
    obtain ⟨u, hcycle, _⟩ := cycle_of_cutsAt hgoes hcut
    refine ⟨1 + n, u, (loop_of_goesOn 1 hgoes).trans ?_⟩
    unfold loop
    rw [hcycle]
  | @failed n _ _ hgoes hcut hresult _ =>
    refine ⟨1 + n, (s.iterated (n + 1)).waited (n + 1), (loop_of_goesOn 1 hgoes).trans ?_⟩
    unfold loop
    rw [cycle_of_not_cutsAt hcut, hresult]

/-! ## A command that is interrupted -/

/-- The stop signal fires while poll `k` runs the command. -/
def FiresIn (s : Session Stage) (k : Nat) : Prop :=
  (s.iterated k).state.signal.fired = false ∧ (s.iterated (k + 1)).state.signal.fired = true

/-- A poll that fires the stop signal and does not fail is a complete one. -/
theorem triggered_of_firesIn {s : Session Stage} {k : Nat} {p : Poll} (hfires : s.FiresIn k)
    (hp : (s.iterated k).record.result = .ok p) :
    p.isTriggered = true ∧ (s.iterated (k + 1)).watch.previous = (s.iterated k).newest ∧
      (s.iterated (k + 1)).state.output = (s.iterated k).state.output ++ completionLine := by
  obtain ⟨hbefore, hafter⟩ := hfires
  rw [iterated_succ] at hafter ⊢
  have hpoll : (s.iterated k).Polled (.ok p) (s.iterated k).record.after :=
    hp ▸ poll_cases (s.iterated k)
  generalize (s.iterated k).record.after = t at hpoll hafter
  cases hpoll with
  | unchanged =>
    -- without a command nothing fires the signal
    rw [hbefore] at hafter
    exact absurd hafter Bool.false_ne_true
  | triggered hran => exact ⟨rfl, rfl, hran.output⟩

/-- A run that gets past `n` polls and is cut there ends there. -/
theorem RunsTo.eq_of_cutsAt {s : Session Stage} {o : Options} {n : Nat}
    {r : Except Halt Summary} {t : Session Stage} (h : s.RunsTo o r t) (hgoes : s.GoesOn o n)
    (hcut : s.CutsAt o n) : r = .ok ⟨n, s.triggersIn n⟩ ∧ t.Like (s.iterated n) := by
  cases h with
  | @cut m _ hgoes' hcut' hlike =>
    have hm : m = n := by
      rcases Nat.lt_trichotomy m n with hlt | heq | hgt
      · exact absurd hcut' (hgoes.uncut m hlt)
      · exact heq
      · exact absurd hcut (hgoes'.uncut n hgt)
    subst hm
    exact ⟨rfl, hlike⟩
  | @failed m _ _ hgoes' hcut' hresult _ =>
    rcases Nat.lt_trichotomy m n with hlt | heq | hgt
    · obtain ⟨p, hp⟩ := hgoes.succeeds m hlt
      rw [hp] at hresult
      cases hresult
    · exact absurd (heq ▸ hcut) hcut'
    · exact absurd hcut (hgoes'.uncut n hgt)

/-- A run returns exactly if it is cut or a poll fails, and then it has done what so many polls
do. If the stop signal fires while a poll runs the command, that poll is still completed: the line
is written, the time is remembered and the poll is counted. -/
theorem run_refines_polls (s : Session Stage) (o : Options) :
    (∀ fuel r t, run Stage.surroundings o fuel s = some (r, t) → s.RunsTo o r t) ∧
      (∀ r t, s.RunsTo o r t → ∃ fuel u, run Stage.surroundings o fuel s = some (r, u)) ∧
      (∀ fuel r t k, run Stage.surroundings o fuel s = some (r, t) → s.GoesOn o (k + 1) →
        s.FiresIn k → r = .ok ⟨k + 1, s.triggersIn k + 1⟩ ∧
          t.watch.previous = (s.iterated k).newest ∧
          t.state.output = (s.iterated k).state.output ++ completionLine) := by
  have hsound : ∀ fuel r t, run Stage.surroundings o fuel s = some (r, t) → s.RunsTo o r t :=
    fun fuel r t h => runsTo_of_loop fuel 0 (s.goesOn_zero o) h
  refine ⟨hsound, fun r t h => exists_run_of_runsTo h, ?_⟩
  intro fuel r t k hrun hgoes hfires
  obtain ⟨p, hp⟩ := hgoes.succeeds k (Nat.lt_succ_self k)
  obtain ⟨htriggered, hprevious, houtput⟩ := triggered_of_firesIn hfires hp
  obtain ⟨hr, hlike⟩ :=
    (hsound fuel r t hrun).eq_of_cutsAt hgoes (Or.inr (Or.inl hfires.2))
  have hcount : s.triggersIn (k + 1) = s.triggersIn k + 1 := by
    rw [triggersIn_succ s k hp, if_pos htriggered]
  rw [hcount] at hr
  rw [hlike.watch, hlike.output]
  exact ⟨hr, hprevious, houtput⟩

/-- No limit is reached after `n` polls, and nobody has fired the stop signal. -/
theorem not_cutsAt {s : Session Stage} {o : Options} {n : Nat}
    (hlimit : ∀ m, o.maxCycles = some m → n < m)
    (hfired : (s.iterated n).state.signal.fired = false)
    (hquiet : ∀ j, s.state.script.stopsWait j = false) : ¬ s.CutsAt o n := by
  rintro (⟨m, hm, hle⟩ | hstopped | ⟨-, j, -, hj⟩)
  · exact absurd (hlimit m hm) (Nat.not_lt.mpr hle)
  · exact Bool.false_ne_true (hfired.symm.trans hstopped)
  · exact Bool.false_ne_true ((hquiet _).symm.trans hj)

/-- A session over one new file whose first run of the command fires the stop signal. -/
def interrupted : Session Stage :=
  fresh ⟨[.ofBytes [97]], "make"⟩ { runs := [{ stops := true }] }
    (FileTree.new.insert (.ofBytes [97]) (.file 5 true))

/-- The same with a stop signal that nobody fires. -/
def uninterrupted : Session Stage :=
  fresh ⟨[.ofBytes [97]], "make"⟩ {} (FileTree.new.insert (.ofBytes [97]) (.file 5 true))

/-- Without a limit, the first run ends after the poll that was interrupted. With a limit of two
cycles, the second ends after another poll, which finds nothing new. -/
theorem run_refines_polls_cutTwice :
    (interrupted.GoesOn {} 1 ∧ interrupted.FiresIn 0 ∧
      ∃ fuel t, run Stage.surroundings {} fuel interrupted = some (.ok ⟨1, 1⟩, t) ∧
        t.watch.previous = ⟨5000000000⟩ ∧ t.state.output = completionLine) ∧
    uninterrupted.GoesOn { maxCycles := some 2 } 2 ∧ ¬ uninterrupted.Stopped 2 ∧
      ∃ fuel t, run Stage.surroundings { maxCycles := some 2 } fuel uninterrupted
          = some (.ok ⟨2, 1⟩, t) ∧
        t.watch.previous = ⟨5000000000⟩ ∧ t.state.commands = ["make"] := by
  constructor
  · have hp : (interrupted.iterated 0).record.result
        = .ok (.triggered .zero ⟨5000000000⟩ .success) := by cbv
    have hcut : ¬ interrupted.CutsAt {} 0 :=
      not_cutsAt (fun _ hm => absurd hm (by simp)) (by decide) fun _ => rfl
    have hgoes : interrupted.GoesOn {} 1 := (goesOn_zero _ _).succ hcut hp
    have hfires : interrupted.FiresIn 0 := ⟨rfl, by cbv⟩
    obtain ⟨hsound, hreturns, hcounts⟩ := run_refines_polls interrupted {}
    have hruns : interrupted.RunsTo {} (.ok ⟨1, interrupted.triggersIn 1⟩)
        (interrupted.iterated 1) :=
      .cut hgoes (Or.inr (Or.inl hfires.2)) ⟨rfl, rfl, rfl, rfl⟩
    obtain ⟨fuel, t, hrun⟩ := hreturns _ _ hruns
    obtain ⟨hr, hprevious, houtput⟩ := hcounts fuel _ t 0 hrun hgoes hfires
    rw [hr] at hrun
    refine ⟨hgoes, hfires, fuel, t, hrun, hprevious.trans ?_, houtput.trans ?_⟩
    · cbv
    · rfl
  · have hfirst : (uninterrupted.iterated 0).record.result
        = .ok (.triggered .zero ⟨5000000000⟩ .success) := by cbv
    have hsecond : (uninterrupted.iterated 1).record.result = .ok .unchanged := by cbv
    have hcut : ∀ n, n < 2 → (uninterrupted.iterated n).state.signal.fired = false →
        ¬ uninterrupted.CutsAt { maxCycles := some 2 } n := fun n hn hfired =>
      not_cutsAt (fun _ hm => Option.some.inj hm ▸ hn) hfired fun _ => rfl
    have hgoes : uninterrupted.GoesOn { maxCycles := some 2 } 2 :=
      ((goesOn_zero _ _).succ (hcut 0 (by decide) rfl) hfirst).succ
        (hcut 1 (by decide) (by cbv)) hsecond
    have hstopped : ¬ uninterrupted.Stopped 2 := fun h =>
      not_cutsAt (o := {}) (fun _ hm => absurd hm (by simp)) (by cbv) (fun _ => rfl) (Or.inr h)
    have hlimit : uninterrupted.CutsAt { maxCycles := some 2 } 2 :=
      Or.inl ⟨2, rfl, Nat.le_refl 2⟩
    obtain ⟨hsound, hreturns, -⟩ := run_refines_polls uninterrupted { maxCycles := some 2 }
    obtain ⟨fuel, t, hrun⟩ := hreturns _ _ (.cut hgoes hlimit ⟨rfl, rfl, rfl, rfl⟩)
    obtain ⟨-, hlike⟩ := (hsound fuel _ t hrun).eq_of_cutsAt hgoes hlimit
    have htriggers : uninterrupted.triggersIn 2 = 1 := by cbv
    rw [htriggers] at hrun
    refine ⟨hgoes, hstopped, fuel, t, hrun, ?_, ?_⟩
    · rw [hlike.watch]
      cbv
    · rw [hlike.commands]
      cbv

end Session

end PollWatch
