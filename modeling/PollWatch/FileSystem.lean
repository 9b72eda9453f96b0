import PollWatch.Errno
import PollWatch.Timestamp
import PollWatch.Path.Key
import PollWatch.Text.Quoted
/-!
# What a scan needs of a file system

A scan asks whether a path is a directory and under which name it is known, what a directory
lists, and when a file was modified. A `View` answers these questions. The names of directories
come from a finite list, which is what makes a scan round a cycle of links end.
-/

namespace PollWatch

/-- What was being done when the system refused. -/
inductive Attempt where
  | listing
  | reading
  | naming

/-- Why the system refused. -/
inductive Refusal where
  /-- A system call failed. -/
  | errno (e : Errno)
  /-- The path cannot be handed to the system, because it holds a zero byte. -/
  | zeroByte

namespace Refusal

/-- The text of a refusal. -/
def text : Refusal → String
  | .errno e => e.text
  | .zeroByte => "file name contained an unexpected NUL byte"

end Refusal

/-- Why a question to a file system has no answer. -/
inductive Fault where
  /-- Following links did not come to an end. -/
  | tooManyLinks (p : Path)
  /-- The file may not be read, or the directory may not be listed. -/
  | permissionDenied (p : Path)
  /-- There is no directory to list. -/
  | notADirectory (p : Path)
  /-- There is nothing there. -/
  | notFound (p : Path)
  /-- The system refused. -/
  | refused (a : Attempt) (p : Path) (r : Refusal)

/-- A path in quotes. -/
def Path.quoted (p : Path) : String := Text.quoted p.toBytes

namespace Fault

/-- What failed, without the cause that the system gave. -/
def summary : Fault → String
  | .tooManyLinks p => "too many levels of symbolic links: " ++ p.quoted
  | .permissionDenied p => "Permission denied: " ++ p.quoted
  | .notADirectory p => "Not a directory or not found: " ++ p.quoted
  | .notFound p => "File not found: " ++ p.quoted
  | .refused .listing p _ => "reading dir " ++ p.quoted
  | .refused .reading p _ => "reading metadata of " ++ p.quoted
  | .refused .naming p _ => "canonicalizing " ++ p.quoted

/-- What failed, and why if the system gave a cause. -/
def message (f : Fault) : String :=
  match f with
  | .refused _ _ r => f.summary ++ ": " ++ r.text
  | _ => f.summary

end Fault

/-- The answers of a file system to the questions of a scan. -/
structure View where
  /-- The name under which the directory at a path is known; none if there is no directory. -/
  directory? : Path → Option Path
  /-- The entries of a directory, as paths below the path that was asked for. -/
  list : Path → Except Fault (List Path)
  /-- When the file at a path was last modified. -/
  modified : Path → Except Fault Instant
  /-- The keys of all names that directories are known under. -/
  names : List Key
  key_mem_names : ∀ p c, directory? p = some c → c.key ∈ names

end PollWatch
