import PollWatch.FileSystem
/-!
# Scanning

A scan looks at every path of the watch set and at everything below the directories among them,
depth first and in order. A directory is entered once: its name is remembered, and meeting it
again, over a link or because it is watched twice, adds nothing. What cannot be read adds nothing
either, but is kept in the report.

The scan is a list of findings, one for each path looked at. The paths still to be looked at wait
in a list, and the entries of a directory are put in front of it. Each step shortens that list or
enters a directory not entered before, of which there are finitely many.

Main statement: `latest_ofFindings`: leaving out the directories that were entered loses no time.
-/

namespace PollWatch

/-- Why a path that is not a directory gave no timestamp. -/
inductive SkipReason where
  /-- The file was modified before the epoch. -/
  | beforeEpoch
  /-- The modification time could not be read. -/
  | fault (f : Fault)

namespace SkipReason

/-- The text of a reason. -/
def message : SkipReason → String
  | .beforeEpoch => "modification time before UNIX epoch"
  | .fault f => f.message

end SkipReason

/-- What a scan found at one path. -/
inductive Finding where
  /-- A file with a modification time. -/
  | observed (p : Path) (modified : Timestamp)
  /-- Anything else that is not a directory. -/
  | skipped (p : Path) (reason : SkipReason)
  /-- A directory that cannot be listed. -/
  | unlisted (p : Path) (fault : Fault)
  /-- A directory entered earlier in the scan. -/
  | revisited (p : Path)
  /-- A directory entered here, the name it is known under, and its entries. -/
  | entered (p : Path) (name : Path) (children : List Path)

namespace Finding

/-- The path that was looked at. -/
def path : Finding → Path
  | .observed p _ => p
  | .skipped p _ => p
  | .unlisted p _ => p
  | .revisited p => p
  | .entered p _ _ => p

/-- Findings that stand in the report: all but the directories that were entered. -/
def isReported : Finding → Bool
  | .entered _ _ _ => false
  | _ => true

/-- The modification time that a finding adds to the scan. -/
def modified? : Finding → Option Timestamp
  | .observed _ t => some t
  | _ => none

/-- A path that added nothing because of a fault. -/
def isFailure : Finding → Bool
  | .skipped _ _ => true
  | .unlisted _ _ => true
  | _ => false

end Finding

namespace View

/-- The names of directories that a scan has not entered yet. -/
def unvisited (v : View) (visited : List Key) : List Key := v.names.filter (· ∉ visited)

theorem length_unvisited_cons_lt {v : View} {visited : List Key} {k : Key}
    (hk : k ∈ v.names) (hv : k ∉ visited) :
    (v.unvisited (k :: visited)).length < (v.unvisited visited).length := by
  have h : v.unvisited (k :: visited) = (v.unvisited visited).filter (· ≠ k) := by
    simp [unvisited, List.filter_filter]
  rw [h]
  refine List.length_filter_lt_length_iff_exists.2 ⟨k, ?_, by simp⟩
  simp [unvisited, hk, hv]

/-- What is found at a path that is no directory. -/
def lookAtFile (v : View) (p : Path) : Finding :=
  match v.modified p with
  | .ok i =>
    match Timestamp.ofInstant? i with
    | some t => .observed p t
    | none => .skipped p .beforeEpoch
  | .error f => .skipped p (.fault f)

/-- What is found at a directory that has not been entered, known as `name`. -/
def enter (v : View) (p name : Path) : Finding :=
  match v.list p with
  | .ok children => .entered p name children
  | .error f => .unlisted p f

end View

/-- The entries of a directory entered by a finding. -/
def Finding.children : Finding → List Path
  | .entered _ _ children => children
  | _ => []

namespace View

/-- Look at the waiting paths, with the names of directories entered so far. -/
def findings (v : View) (visited : List Key) : List Path → List Finding
  | [] => []
  | p :: waiting =>
    match _h : v.directory? p with
    | none => v.lookAtFile p :: v.findings visited waiting
    | some name =>
      if name.key ∈ visited then .revisited p :: v.findings visited waiting
      else v.enter p name ::
        v.findings (name.key :: visited) ((v.enter p name).children ++ waiting)
termination_by waiting => ((v.unvisited visited).length, waiting.length)
decreasing_by
  · exact Prod.Lex.right _ (by simp)
  · exact Prod.Lex.right _ (by simp)
  · exact Prod.Lex.left _ _ (length_unvisited_cons_lt (v.key_mem_names p name _h) ‹_›)

/-- Everything found from the paths of a watch set. -/
def scan (v : View) (paths : List Path) : List Finding := v.findings [] paths

end View

/-- What a scan reports, in the order of the scan. -/
structure Report where
  entries : List Finding

namespace Report

/-- The report of a scan. -/
def ofFindings (fs : List Finding) : Report := ⟨fs.filter Finding.isReported⟩

/-- The newest modification time; zero if there is none. -/
def latest (r : Report) : Timestamp := Timestamp.newest (r.entries.filterMap Finding.modified?)

/-- The number of files with a modification time. -/
def observedCount (r : Report) : Nat := (r.entries.filterMap Finding.modified?).length

/-- The number of paths that added nothing because of a fault. -/
def failureCount (r : Report) : Nat := (r.entries.filter Finding.isFailure).length

end Report

/-- The newest modification time of some findings. -/
def latestOf (fs : List Finding) : Timestamp := Timestamp.newest (fs.filterMap Finding.modified?)

theorem latest_ofFindings (fs : List Finding) : (Report.ofFindings fs).latest = latestOf fs := by
  unfold Report.latest Report.ofFindings latestOf
  congr 1
  induction fs with
  | nil => rfl
  | cons f fs ih =>
    cases f <;> simp [List.filter_cons, List.filterMap_cons, Finding.isReported,
      Finding.modified?, ih]

namespace View

/-- The report of scanning a watch set. -/
def report (v : View) (paths : List Path) : Report := .ofFindings (v.scan paths)

/-- The newest modification time below a watch set. -/
def latest (v : View) (paths : List Path) : Timestamp := (v.report paths).latest

end View

end PollWatch
