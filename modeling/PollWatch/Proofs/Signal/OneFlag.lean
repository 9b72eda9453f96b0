import PollWatch.Signal.Handles

/-!
# The stop signal is one flag

Receivers of a stop signal look at a channel, keep what they have seen of it, and may be in the
middle of a wait. Nothing of this can be told from their answers: all of them show one flag, which
goes up when the trigger fires.

> `Shows.step`: handles that show a flag answer a step as the flag does, and show the flag after it.

What carries it is that a wait which asks for a change has not seen the version that raised the
flag (`InStep.listening`), so that it is told of it, and that a wait gives up only when the trigger
is gone and the flag is down (`InStep.stranded`), where it stays.

> `answers_of_fired`: a receiver sees the flag up, and a wait is over, exactly if the trigger fired
> earlier on, before it was dropped.
-/

namespace PollWatch.Signal

/-! ## Waits -/

section Wait

variable {σ ρ : Type} {c : Channel Bool σ ρ} {s s' : σ} {r : ρ} {w : Waiting}

theorem poll_looking_of_true (h : c.value s = true) :
    poll c s .looking r = (none, (c.borrowAndUpdate s r).2) := by
  rw [poll, if_pos (by rw [c.borrowAndUpdate_fst, h])]

theorem poll_looking_of_false (h : c.value s = false) :
    poll c s .looking r = poll c s .listening (c.borrowAndUpdate s r).2 := by
  rw [poll, if_neg (by rw [c.borrowAndUpdate_fst, h]; simp)]

/-- A wait that is told of a change looks again. -/
theorem poll_listening_of_news (h : c.seen r ≠ c.version s) :
    poll c s .listening r = poll c s .looking (c.changed s r).2 := by
  have hnews : (c.changed s r).1 = .changed := by rw [c.changed_fst, if_pos h]
  rw [poll.eq_def c s .listening]
  dsimp only
  split
  next => rfl
  next hquiet => exact absurd (hnews.symm.trans hquiet) (by simp)
  next hclosed => exact absurd (hnews.symm.trans hclosed) (by simp)

/-- Without a change a wait stays, or gives up if the trigger is gone. -/
theorem poll_listening_of_seen (h : c.seen r = c.version s) :
    poll c s .listening r
      = (some (if c.isClosed s then .stranded else .listening), (c.changed s r).2) := by
  have hnews : (c.changed s r).1 = if c.isClosed s then .closed else .quiet := by
    rw [c.changed_fst, if_neg (not_not_intro h)]
  rw [poll]
  cases hclosed : c.isClosed s with
  | true =>
    rw [hclosed] at hnews
    split
    next hchanged => exact absurd (hnews.symm.trans hchanged) (by simp)
    next hquiet => exact absurd (hnews.symm.trans hquiet) (by simp)
    next => rfl
  | false =>
    rw [hclosed] at hnews
    split
    next hchanged => exact absurd (hnews.symm.trans hchanged) (by simp)
    next => rfl
    next hgone => exact absurd (hnews.symm.trans hgone) (by simp)

/-- A receiver and its wait are in step with the channel: what was seen was there, a flag that is
up is news to a wait that asks for a change, and a wait has given up only for good. -/
structure InStep (c : Channel Bool σ ρ) (s : σ) (r : ρ) (w : Waiting) : Prop where
  seen_le : c.seen r ≤ c.version s
  listening : w = .listening → c.value s = true → c.seen r ≠ c.version s
  stranded : w = .stranded → c.value s = false ∧ c.isClosed s = true

/-- A receiver that has not begun to wait. -/
theorem inStep_looking (h : c.seen r ≤ c.version s) : InStep c s r .looking where
  seen_le := h
  listening hw := absurd hw (by simp)
  stranded hw := absurd hw (by simp)

/-- The wait is over exactly if the flag is up, and the receiver stays in step. -/
def Rightly (c : Channel Bool σ ρ) (s : σ) (x : Option Waiting × ρ) : Prop :=
  x.1.isNone = c.value s ∧ InStep c s x.2 (x.1.getD .looking)

/-- A receiver that has seen all is told to stay, or to give up. -/
theorem rightly_listening_of_seen (hseen : c.seen r = c.version s) (hdown : c.value s = false) :
    Rightly c s (poll c s .listening r) := by
  rw [poll_listening_of_seen hseen]
  refine ⟨hdown.symm, Nat.le_of_eq (c.seen_changed s r), fun _ hup => ?_, fun hgone => ⟨hdown, ?_⟩⟩
  · exact absurd (hdown.symm.trans hup) (by simp)
  · cases hclosed : c.isClosed s with
    | true => rfl
    | false =>
      rw [hclosed] at hgone
      exact absurd hgone (by simp)

theorem rightly_looking : Rightly c s (poll c s .looking r) := by
  cases hvalue : c.value s with
  | true =>
    rw [poll_looking_of_true hvalue]
    exact ⟨hvalue.symm, inStep_looking (Nat.le_of_eq (c.seen_borrowAndUpdate s r))⟩
  | false =>
    rw [poll_looking_of_false hvalue]
    exact rightly_listening_of_seen (c.seen_borrowAndUpdate s r) hvalue

/-- **A wait that is in step is over exactly if the flag is up.** -/
theorem InStep.poll (h : InStep c s r w) : Rightly c s (Signal.poll c s w r) := by
  cases w with
  | looking => exact rightly_looking
  | listening =>
    by_cases hseen : c.seen r = c.version s
    · have hdown : c.value s = false :=
        Bool.eq_false_iff.mpr fun hup => h.listening rfl hup hseen
      exact rightly_listening_of_seen hseen hdown
    · rw [poll_listening_of_news hseen]
      exact rightly_looking
  | stranded =>
    rw [Signal.poll]
    exact ⟨(h.stranded rfl).1.symm, h⟩

/-- A value that is sent is news to everyone. -/
theorem InStep.send (h : InStep c s r w) (hopen : c.isClosed s = false) (a : Bool) :
    InStep c (c.send a s) r w where
  seen_le := Nat.le_of_lt (Nat.lt_of_le_of_lt h.seen_le (c.version_lt_send a s))
  listening _ _ := Nat.ne_of_lt (Nat.lt_of_le_of_lt h.seen_le (c.version_lt_send a s))
  stranded hw := absurd (hopen.symm.trans (h.stranded hw).2) (by simp)

theorem InStep.close (h : InStep c s r w) : InStep c (c.close s) r w where
  seen_le := by rw [c.version_close]; exact h.seen_le
  listening hw hup := by
    rw [c.value_close] at hup
    rw [c.version_close]
    exact h.listening hw hup
  stranded hw := ⟨(c.value_close s).trans (h.stranded hw).1, c.isClosed_close s⟩

end Wait

/-! ## Handles -/

/-- The receiver that a step names. -/
def Step.receiver? : Step → Option Nat
  | .isRaised n => some n
  | .wait n => some n
  | .again n => some n
  | .clone n => some n
  | .fire => none
  | .drop => none

/-- How many receivers there are after a step. -/
def Step.count (n : Nat) : Step → Nat
  | .clone _ => n + 1
  | _ => n

/-- Every step names a receiver that there is by then, beginning with `count` of them. -/
def Named : Nat → List Step → Prop
  | _, [] => True
  | count, x :: xs => (∀ n ∈ x.receiver?, n < count) ∧ Named (x.count count) xs

theorem receivers_step (s : Signal) (x : Step) : (s.step x).2.receivers = x.count s.receivers := by
  cases x with
  | fire =>
    show s.fire.receivers = s.receivers
    unfold Signal.fire
    split
    next => rfl
    next => rfl
  | _ => rfl

/-- The signal after a sequence of steps. -/
def after (s : Signal) (steps : List Step) : Signal := steps.foldl (fun s x => (s.step x).2) s

section Handles

variable {σ ρ : Type} {c : Channel Bool σ ρ} {h : Handles σ ρ} {s : Signal}

/-- The handles show this flag, and this trigger and number of receivers. -/
structure Shows (c : Channel Bool σ ρ) (h : Handles σ ρ) (s : Signal) : Prop where
  value : c.value h.shared = s.fired
  isClosed : c.isClosed h.shared = s.dropped
  hasTrigger : h.hasTrigger = !s.dropped
  length : h.receivers.length = s.receivers
  inStep : ∀ x ∈ h.receivers, InStep c h.shared x.1 x.2

theorem shows_new (c : Channel Bool σ ρ) : Shows c (.new c) {} where
  value := c.value_create false
  isClosed := c.isClosed_create false
  hasTrigger := rfl
  length := rfl
  inStep x hx := by
    obtain rfl := List.mem_singleton.mp hx
    exact inStep_looking (Nat.le_of_eq (c.seen_create false))

theorem Shows.look (hs : Shows c h s) {n : Nat} {r : ρ} {w : Waiting}
    (hr : InStep c h.shared r w) :
    (h.look c n r w).1 = .waited s.fired ∧ Shows c (h.look c n r w).2 s := by
  obtain ⟨hover, hstays⟩ := hr.poll
  refine ⟨congrArg Answer.waited (hover.trans hs.value), hs.value, hs.isClosed, hs.hasTrigger,
    (List.length_set ..).trans hs.length, fun x hx => ?_⟩
  rcases List.mem_or_eq_of_mem_set hx with hold | rfl
  · exact hs.inStep x hold
  · exact hstays

theorem Shows.clone (hs : Shows c h s) {r : ρ} (hr : c.seen r ≤ c.version h.shared) :
    Shows c { h with receivers := h.receivers ++ [(c.clone r, .looking)] } s.clone where
  value := hs.value
  isClosed := hs.isClosed
  hasTrigger := hs.hasTrigger
  length := by rw [List.length_append, List.length_singleton, hs.length, Signal.clone]
  inStep x hx := by
    rcases List.mem_append.mp hx with hold | hnew
    · exact hs.inStep x hold
    · obtain rfl := List.mem_singleton.mp hnew
      exact inStep_looking (by rw [c.seen_clone]; exact hr)

theorem Shows.fire (hs : Shows c h s) (hdropped : s.dropped = false) :
    Shows c { h with shared := c.send true h.shared } s.fire := by
  have hopen : c.isClosed h.shared = false := hs.isClosed.trans hdropped
  have hfire : s.fire = { s with fired := true } := by
    rw [Signal.fire, hdropped]
    rfl
  rw [hfire]
  exact ⟨c.value_send true _, (c.isClosed_send true _).trans hs.isClosed, hs.hasTrigger, hs.length,
    fun x hx => (hs.inStep x hx).send hopen true⟩

theorem Shows.drop (hs : Shows c h s) :
    Shows c { h with shared := c.close h.shared, hasTrigger := false } s.drop where
  value := (c.value_close _).trans hs.value
  isClosed := c.isClosed_close _
  hasTrigger := rfl
  length := hs.length
  inStep x hx := (hs.inStep x hx).close

/-- A step answers as the flag does, and the handles show the flag after it. -/
def StepShows (c : Channel Bool σ ρ) (h : Handles σ ρ) (s : Signal) (x : Step) : Prop :=
  ∃ after, h.step c x = some ((s.step x).1, after) ∧ Shows c after (s.step x).2

theorem Shows.step_fire (hs : Shows c h s) : StepShows c h s .fire := by
  cases hdropped : s.dropped with
  | true =>
    -- a trigger that is gone sends nothing
    have htrigger : h.hasTrigger = false := by rw [hs.hasTrigger, hdropped, Bool.not_true]
    refine ⟨h, by simp [Handles.step, Signal.step, htrigger, hdropped], ?_⟩
    show Shows c h s.fire
    rw [Signal.fire, if_pos hdropped]
    exact hs
  | false =>
    have htrigger : h.hasTrigger = true := by rw [hs.hasTrigger, hdropped, Bool.not_false]
    refine ⟨{ h with shared := c.send true h.shared }, ?_, hs.fire hdropped⟩
    simp [Handles.step, Signal.step, htrigger, hdropped]

theorem Shows.step_drop (hs : Shows c h s) : StepShows c h s .drop := by
  cases hdropped : s.dropped with
  | true =>
    -- the trigger can be dropped only once
    have htrigger : h.hasTrigger = false := by rw [hs.hasTrigger, hdropped, Bool.not_true]
    refine ⟨h, by simp [Handles.step, Signal.step, htrigger], ?_⟩
    show Shows c h s.drop
    rw [Signal.drop, ← hdropped]
    exact hs
  | false =>
    have htrigger : h.hasTrigger = true := by rw [hs.hasTrigger, hdropped, Bool.not_false]
    refine ⟨{ h with shared := c.close h.shared, hasTrigger := false }, ?_, hs.drop⟩
    simp [Handles.step, Signal.step, htrigger]

/-- A receiver that a step names is there. -/
theorem Shows.receiver (hs : Shows c h s) {n : Nat} (hn : n < s.receivers) :
    ∃ y, h.receivers[n]? = some y ∧ InStep c h.shared y.1 y.2 := by
  have hlt : n < h.receivers.length := by
    rw [hs.length]
    exact hn
  exact ⟨_, List.getElem?_eq_getElem hlt, hs.inStep _ (List.getElem_mem hlt)⟩

/-- **A step shows nothing but the flag**: the answer is the one that the flag gives, and the flag
after the step is what the handles show. -/
theorem Shows.step (hs : Shows c h s) {x : Step} (hx : ∀ n ∈ x.receiver?, n < s.receivers) :
    StepShows c h s x := by
  cases x with
  | isRaised n =>
    obtain ⟨y, hy, -⟩ := hs.receiver (hx n rfl)
    refine ⟨h, ?_, hs⟩
    rw [Handles.step, hy, Option.map_some, c.borrow_eq, hs.value]
    rfl
  | wait n =>
    -- a new wait starts over, wherever the one before it stood
    obtain ⟨y, hy, hin⟩ := hs.receiver (hx n rfl)
    obtain ⟨hanswer, hshows⟩ := hs.look (n := n) (inStep_looking hin.seen_le)
    refine ⟨_, ?_, hshows⟩
    rw [Handles.step, hy, Option.map_some]
    exact congrArg some (Prod.ext hanswer rfl)
  | again n =>
    obtain ⟨y, hy, hin⟩ := hs.receiver (hx n rfl)
    obtain ⟨hanswer, hshows⟩ := hs.look (n := n) hin
    refine ⟨_, ?_, hshows⟩
    rw [Handles.step, hy, Option.map_some]
    exact congrArg some (Prod.ext hanswer rfl)
  | clone n =>
    obtain ⟨y, hy, hin⟩ := hs.receiver (hx n rfl)
    refine ⟨_, ?_, hs.clone hin.seen_le⟩
    rw [Handles.step, hy, Option.map_some, hs.length]
    rfl
  | fire => exact hs.step_fire
  | drop => exact hs.step_drop

/-- A sequence of steps shows nothing but the flag. -/
theorem Shows.answers {steps : List Step} (hs : Shows c h s) (hnamed : Named s.receivers steps) :
    h.answers c steps = some (s.answers steps) := by
  induction steps generalizing h s with
  | nil => rfl
  | cons x xs ih =>
    obtain ⟨hx, hxs⟩ := hnamed
    obtain ⟨h', hstep, hs'⟩ := hs.step hx
    rw [← receivers_step] at hxs
    rw [Handles.answers, hstep, Signal.answers]
    dsimp only
    rw [ih hs' hxs]
    rfl

end Handles

/-! ## The flag -/

/-- The trigger fires in these steps, and was not dropped before. -/
def Fires (steps : List Step) : Prop := .fire ∈ steps.takeWhile (· ≠ .drop)

instance (steps : List Step) : Decidable (Fires steps) := by
  unfold Fires
  infer_instance

theorem fires_cons {x : Step} {steps : List Step} :
    Fires (x :: steps) ↔ x ≠ .drop ∧ (x = .fire ∨ Fires steps) := by
  unfold Fires
  by_cases hx : x = .drop
  · simp [hx]
  · simp [hx, eq_comm]

theorem Fires.append {steps : List Step} (h : Fires steps) (more : List Step) :
    Fires (steps ++ more) := by
  induction steps with
  | nil => exact absurd h (by simp [Fires])
  | cons x steps ih =>
    obtain ⟨hx, hfire⟩ := fires_cons.mp h
    exact fires_cons.mpr ⟨hx, hfire.imp_right ih⟩

/-- Once the trigger was dropped, nothing that follows counts. -/
theorem fires_append_of_dropped {steps : List Step} (h : .drop ∈ steps) (more : List Step) :
    Fires (steps ++ more) ↔ Fires steps := by
  induction steps with
  | nil => exact absurd h List.not_mem_nil
  | cons x steps ih =>
    rw [List.cons_append, fires_cons, fires_cons]
    by_cases hx : x = .drop
    · simp [hx]
    · have hmem := (List.mem_cons.mp h).resolve_left (Ne.symm hx)
      rw [ih hmem]

/-- The flag is up exactly if it was, or the trigger was there and fired. -/
theorem fired_after (s : Signal) (steps : List Step) :
    (s.after steps).fired = (s.fired || (!s.dropped && decide (Fires steps))) := by
  induction steps generalizing s with
  | nil => simp [after, Fires]
  | cons x steps ih =>
    have hcons : s.after (x :: steps) = (s.step x).2.after steps := List.foldl_cons ..
    rw [hcons, ih]
    cases x with
    | fire => cases hdropped : s.dropped <;> simp [Signal.step, Signal.fire, hdropped, fires_cons]
    | drop => simp [Signal.step, Signal.drop, fires_cons]
    | _ => simp [Signal.step, Signal.clone, fires_cons]

theorem getElem?_answers (s : Signal) {steps : List Step} {i : Nat} {x : Step}
    (h : steps[i]? = some x) : (s.answers steps)[i]? = some ((s.after (steps.take i)).step x).1 := by
  induction steps generalizing s i with
  | nil => exact absurd h (by simp)
  | cons y steps ih =>
    cases i with
    | zero =>
      obtain rfl := Option.some.inj h
      rfl
    | succ i => exact ih (s.step y).2 h

/-- **The stop signal is one flag.** Over any channel, and for every sequence of steps that names
only receivers that exist, the answers are those of the one flag. A receiver sees the flag up, and
a wait is over, exactly if the trigger fired earlier in the sequence and had not been dropped:
whichever receiver it is, whenever it was made, and whatever waits were begun before. The flag
never goes down again, and once the trigger was dropped it stays as it is, so that a wait then is
over at once or never. -/
theorem answers_of_fired {σ ρ : Type} (c : Channel Bool σ ρ) {steps : List Step}
    (hnamed : Named 1 steps) :
    ∃ answers : List Answer, (Handles.new c).answers c steps = some answers ∧
      answers = Signal.answers {} steps ∧
      (∀ i n : Nat, steps[i]? = some (.isRaised n) →
        answers[i]? = some (.raised (decide (Fires (steps.take i))))) ∧
      (∀ i n : Nat, steps[i]? = some (.wait n) ∨ steps[i]? = some (.again n) →
        answers[i]? = some (.waited (decide (Fires (steps.take i))))) ∧
      (∀ i j : Nat, i ≤ j → Fires (steps.take i) → Fires (steps.take j)) ∧
      (∀ i j : Nat, i ≤ j → .drop ∈ steps.take i → (Fires (steps.take j) ↔ Fires (steps.take i))) := by
  have hflag : ∀ i, (after {} (steps.take i)).fired = decide (Fires (steps.take i)) := by
    intro i
    rw [fired_after]
    simp
  have htake : ∀ i j, i ≤ j → ∃ more, steps.take j = steps.take i ++ more := by
    intro i j hij
    obtain ⟨more, hmore⟩ := List.take_prefix_take_left hij (l := steps)
    exact ⟨more, hmore.symm⟩
  refine ⟨_, (shows_new c).answers hnamed, rfl, fun i n hi => ?_, fun i n hi => ?_,
    fun i j hij hfires => ?_, fun i j hij hdrop => ?_⟩
  · rw [getElem?_answers {} hi, ← hflag]
    rfl
  · rcases hi with hi | hi
    all_goals
      rw [getElem?_answers {} hi, ← hflag]
      rfl
  · obtain ⟨more, hmore⟩ := htake i j hij
    rw [hmore]
    exact hfires.append more
  · obtain ⟨more, hmore⟩ := htake i j hij
    rw [hmore]
    exact fires_append_of_dropped hdrop more

/-- A wait is begun, a receiver is made from the one that waits, and then the trigger fires and is
dropped. -/
def interrupted : List Step :=
  [.wait 0, .clone 0, .isRaised 1, .fire, .drop, .again 0, .wait 1, .isRaised 1]

/-- The wait is over when it is looked at again, and so is one of the receiver made meanwhile. -/
theorem answers_of_fired_interrupted :
    Named 1 interrupted ∧
      (Handles.new (Channel.versioned Bool)).answers (Channel.versioned Bool) interrupted
        = some [.waited false, .receivers 2, .raised false, .done, .done, .waited true,
            .waited true, .raised true] := by
  have hnamed : Named 1 interrupted := by
    simp [Named, interrupted, Step.receiver?, Step.count]
  obtain ⟨answers, hanswers, rfl, -⟩ := answers_of_fired (Channel.versioned Bool) hnamed
  exact ⟨hnamed, hanswers⟩

end PollWatch.Signal
