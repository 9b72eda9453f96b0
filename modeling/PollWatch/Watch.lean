import PollWatch.Timestamp
import PollWatch.Path.Basic
/-!
# What a watch remembers

A watch has a set of paths, a command, and the newest modification time that it has acted on. A
new time is a change whenever it differs, later or earlier; it is remembered only once the
command has been dealt with.
-/

namespace PollWatch

/-- What the user asks for: paths to watch and a command to run. -/
structure WatchSpec where
  paths : List Path
  command : String

/-- A watch in progress. -/
structure Watch extends WatchSpec where
  /-- The newest modification time acted on, zero at first. -/
  previous : Timestamp := .zero

/-- How a new time compares with the one acted on. -/
inductive Change where
  | unchanged
  | changed (previous current : Timestamp)
deriving DecidableEq

namespace Watch

/-- Compare a new time with the one acted on. -/
def observe (w : Watch) (candidate : Timestamp) : Change :=
  if candidate = w.previous then .unchanged else .changed w.previous candidate

/-- Remember a time as acted on. -/
def commit (w : Watch) (t : Timestamp) : Watch := { w with previous := t }

theorem observe_eq_unchanged_iff {w : Watch} {t : Timestamp} :
    w.observe t = .unchanged ↔ t = w.previous := by
  unfold observe
  split <;> simp_all

theorem observe_commit (w : Watch) (t : Timestamp) : (w.commit t).observe t = .unchanged := by
  simp [observe, commit]

end Watch

end PollWatch
