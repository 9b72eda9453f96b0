import PollWatch.Scan
import PollWatch.Watch
import PollWatch.Failure
import PollWatch.Outcome
/-!
# Polling

A session watches inside some surroundings: a file system to scan, a place to run commands, a
stream for the completion line, and a stop signal. One poll scans, compares, and on a change runs
the command, writes the completion line and remembers the time, in this order. So a poll that
fails on the way remembers nothing, and the next one tries again.

A run waits and polls in turn, until the limit of cycles is reached, the stop signal comes during
a wait, or a poll fails.

The surroundings are a record of operations on a state, so that the same poll runs over a file
tree in memory and over a host.
-/

namespace PollWatch

/-- The line written after each run of the command. -/
def completionLine : String := "@@@ done.\n"

/-- What a session tells about its progress. -/
inductive Notice where
  /-- A run begins. -/
  | started (spec : WatchSpec) (intervalMs : Nat)
  /-- A scan is over. -/
  | scanned (findings : List Finding)
  /-- The scan gave the time already acted on. -/
  | unchanged (current : Timestamp)
  /-- The scan gave another time. -/
  | changed (previous current : Timestamp)
  /-- The command could not be run. -/
  | notRun (command message : String)
  /-- The command was dealt with. -/
  | finished (outcome : Outcome)
  /-- The limit of cycles is reached. -/
  | limitReached (cycles : Nat)
  /-- The stop signal came. -/
  | stopping
  /-- The run ends. -/
  | exiting (cycles triggers : Nat)

/-- Why a step of a session broke off. -/
inductive Halt where
  /-- The step failed. -/
  | failed (f : Failure)
  /-- A part of the program crashed, with this message. -/
  | crashed (message : String)

/-- How an attempt to run the command ended. -/
inductive Performance where
  | ended (o : Outcome)
  /-- The command could not be run. -/
  | notRun (f : Failure)
  /-- Running the command crashed. -/
  | crashed (message : String)

/-- The operations of a session on its surroundings. -/
structure Surroundings (σ : Type) where
  /-- Scan a watch set. -/
  look : σ → List Path → Except Failure (List Finding)
  /-- Run a command. -/
  perform : String → σ → Performance × σ
  /-- Write the completion line. -/
  announce : σ → Except WriteFault Unit × σ
  /-- Wait for one interval; true if the stop signal came before it was over. -/
  rest : Nat → σ → Bool × σ
  /-- Take note of progress. -/
  note : Notice → σ → σ

/-- How a run is limited and paced. Any numbers will do here; a command line gives none of more
than 64 bits. -/
structure Options where
  intervalMs : Nat := 1000
  maxCycles : Option Nat := none
deriving DecidableEq

/-- A watch together with its surroundings. -/
structure Session (σ : Type) where
  watch : Watch
  state : σ

/-- What a poll came to. -/
inductive Poll where
  | unchanged
  | triggered (previous current : Timestamp) (outcome : Outcome)

namespace Poll

/-- The command was run. -/
def isTriggered : Poll → Bool
  | .unchanged => false
  | .triggered _ _ _ => true

end Poll

/-- The counts of a run. They have no greatest value here, while a counter of 64 bits would have
one; but no run gets as far as 2^64 cycles, which take centuries at a nanosecond each. -/
structure Summary where
  cycles : Nat := 0
  triggers : Nat := 0
deriving DecidableEq

/-- The counts after one more poll. -/
def Summary.add (c : Summary) (p : Poll) : Summary :=
  ⟨c.cycles + 1, c.triggers + if p.isTriggered then 1 else 0⟩

/-- Whether a run has used up its cycles. -/
def Options.isLimit (o : Options) (cycles : Nat) : Bool :=
  match o.maxCycles with
  | some m => m ≤ cycles
  | none => false

theorem Options.isLimit_iff {o : Options} {cycles : Nat} :
    o.isLimit cycles = true ↔ ∃ m, o.maxCycles = some m ∧ m ≤ cycles := by
  unfold isLimit
  cases o.maxCycles with
  | none => simp
  | some m => simp

/-- What a run has come to after one more cycle. -/
inductive Progress (σ : Type) where
  /-- The run has ended, with its counts or with the reason why it broke off. -/
  | over (r : Except Halt Summary × Session σ)
  /-- The run goes on from these counts. -/
  | underWay (c : Summary) (s : Session σ)

namespace Session

variable {σ : Type}

/-- The second half of a poll: the outcome is known; write the line and remember the time. -/
def complete (env : Surroundings σ) (watch : Watch) (current : Timestamp) (outcome : Outcome)
    (state : σ) : Except Halt Poll × Session σ :=
  match env.announce (env.note (.finished outcome) state) with
  | (.error f, after) => (.error (.failed (.io f)), ⟨watch, after⟩)
  | (.ok (), after) =>
    (.ok (.triggered watch.previous current outcome), ⟨watch.commit current, after⟩)

/-- Act on a change: run the command, and complete the poll unless that crashes. -/
def act (env : Surroundings σ) (watch : Watch) (current : Timestamp) (state : σ) :
    Except Halt Poll × Session σ :=
  match env.perform watch.command (env.note (.changed watch.previous current) state) with
  | (.crashed m, after) => (.error (.crashed m), ⟨watch, after⟩)
  | (.ended o, after) => complete env watch current o after
  | (.notRun f, after) =>
    complete env watch current (.spawnFailed f.message)
      (env.note (.notRun watch.command f.message) after)

/-- Scan once, and run the command if the newest time has changed. -/
def poll (env : Surroundings σ) (s : Session σ) : Except Halt Poll × Session σ :=
  match env.look s.state s.watch.paths with
  | .error f => (.error (.failed f), s)
  | .ok found =>
    let state := env.note (.scanned found) s.state
    match s.watch.observe (latestOf found) with
    | .unchanged => (.ok .unchanged, ⟨s.watch, env.note (.unchanged (latestOf found)) state⟩)
    | .changed _ current => act env s.watch current state

/-- End a run for the reason given by `why`. -/
def finish (env : Surroundings σ) (why : Notice) (c : Summary) (s : Session σ) :
    Except Halt Summary × Session σ :=
  (.ok c, ⟨s.watch, env.note (.exiting c.cycles c.triggers) (env.note why s.state)⟩)

/-- One cycle of a run that has come to the counts `c`: the run ends at the limit of cycles, when
the stop signal comes during the wait, or when the poll fails. -/
def cycle (env : Surroundings σ) (o : Options) (c : Summary) (s : Session σ) : Progress σ :=
  if o.isLimit c.cycles then .over (finish env (.limitReached c.cycles) c s)
  else
    match env.rest o.intervalMs s.state with
    | (true, after) => .over (finish env .stopping c ⟨s.watch, after⟩)
    | (false, after) =>
      match poll env ⟨s.watch, after⟩ with
      | (.error h, t) => .over (.error h, t)
      | (.ok p, t) => .underWay (c.add p) t

/-- Go on with a run that has come to the counts `c`. The first argument bounds the number of
cycles; no answer means that the run is not over within it. -/
def loop (env : Surroundings σ) (o : Options) :
    Nat → Summary → Session σ → Option (Except Halt Summary × Session σ)
  | 0, _, _ => none
  | fuel + 1, c, s =>
    match cycle env o c s with
    | .over r => some r
    | .underWay d t => loop env o fuel d t

/-- Begin a run. -/
def start (env : Surroundings σ) (o : Options) (s : Session σ) : Session σ :=
  ⟨s.watch, env.note (.started s.watch.toWatchSpec o.intervalMs) s.state⟩

/-- Wait and poll in turn until the run ends. -/
def run (env : Surroundings σ) (o : Options) (fuel : Nat) (s : Session σ) :
    Option (Except Halt Summary × Session σ) :=
  loop env o fuel {} (start env o s)

end Session

end PollWatch
