import PollWatch.Host.Lookup
/-!
# Changing a host

Writing, making, moving and removing files, as commands and users do it. A new file or directory
gets the time of the clock.
-/

namespace PollWatch.Host

/-- The path without slashes at its end. -/
def trimSlashes (p : Path) : Path :=
  match (p.segments.reverse.dropWhile (· = .empty)).reverse with
  | [] => p
  | s :: ss => ⟨s, ss⟩

/-- Write a file, or put new content into the one there. The time is that of the clock unless it
is given. -/
def write (h : Host) (p : Path) (content : Bytes) (time? : Option Instant := none) :
    Except Errno Host :=
  match h.place true p with
  | .error e => .error e
  | .ok q =>
    let (now, h) := h.tick
    let time := time?.getD now
    match h.get? q with
    | none => .ok (h.set q (.file content time false))
    | some (.file _ _ x) => .ok (h.set q (.file content time x))
    | some (.device .full) => .error .noSpace
    | some (.device .null) => .ok h
    | some _ => .error .isADirectory

/-- Add bytes at the end of the file at a place. -/
def append (h : Host) (q : Place) (more : Bytes) : Host :=
  let (now, h) := h.tick
  match h.get? q with
  | some (.file content _ x) => h.set q (.file (content ++ more) now x)
  | _ => h

/-- Make a directory in one that exists. -/
def makeDirectory (h : Host) (p : Path) : Except Errno Host :=
  match h.place false (trimSlashes p) with
  | .error e => .error e
  | .ok q =>
    match h.get? q with
    | some _ => .error .alreadyExists
    | none => .ok (h.tick.2.set q (.directory h.tick.1))

/-- The beginnings of a path that end before a slash, the path itself last. -/
def ancestors (p : Path) : List Path :=
  (List.range p.rest.length).map (fun n => ⟨p.first, p.rest.take n⟩) ++ [p]

/-- Make a directory and those above it, where they are missing. -/
def makeDirectories (h : Host) (p : Path) : Except Errno Host :=
  (ancestors (trimSlashes p)).foldlM (fun h a =>
    if a = .empty ∨ h.isDirectory a then .ok h else h.makeDirectory a) h

/-- The path above a path. -/
def above (p : Path) : Path :=
  match p.rest with
  | [] => .dot
  | rest => ⟨p.first, rest.dropLast⟩

/-- Make a link. Nothing may stand there yet. -/
def makeLink (h : Host) (p target : Path) : Except Errno Host :=
  match h.place false p with
  | .error e => .error e
  | .ok q =>
    match h.get? q with
    | some _ => .error .alreadyExists
    | none => .ok (h.set q (.link target))

/-- Give what stands at the end of a path another time. -/
def setTime (h : Host) (p : Path) (time : Instant) : Except Errno Host :=
  match h.find true p with
  | .error e => .error e
  | .ok (q, .file content _ x) => .ok (h.set q (.file content time x))
  | .ok (q, .directory _) => .ok (h.set q (.directory time))
  | .ok _ => .ok h

/-- Remove what stands at a path, with everything below it. A link is removed and not
followed. -/
def removeAll (h : Host) (p : Path) : Except Errno Host :=
  match h.find false p with
  | .error e => .error e
  | .ok (q, _) => .ok (h.erase q)

/-- Remove an empty directory. -/
def removeDirectory (h : Host) (p : Path) : Except Errno Host :=
  match h.find false (trimSlashes p) with
  | .error e => .error e
  | .ok (q, .directory _) => if h.names q = [] then .ok (h.erase q) else .error .notEmpty
  | .ok _ => .error .notADirectory

/-- The place `q` with its beginning `old` replaced by `new`. -/
def movePlace (old new q : Place) : Place :=
  if old.isPrefixOf q then new ++ q.drop old.length else q

/-- Move what stands at one path to another, in place of what is there. -/
def rename (h : Host) (p p' : Path) : Except Errno Host :=
  match h.find false (trimSlashes p), h.place false (trimSlashes p') with
  | .error e, _ => .error e
  | _, .error e => .error e
  | .ok (q, n), .ok q' =>
    if q = q' then .ok h
    else
      let moved : Host :=
        { h.erase q' with
          nodes := (h.erase q').nodes.map fun e => (movePlace q q' e.1, e.2) }
      match n, h.get? q' with
      | .directory _, some (.directory _) => if h.names q' = [] then .ok moved else .error .notEmpty
      | .directory _, some _ => .error .notADirectory
      | _, some (.directory _) => .error .isADirectory
      | _, _ => .ok moved

/-- The bytes of a file. -/
def read (h : Host) (p : Path) : Except Errno Bytes :=
  match h.find true p with
  | .error e => .error e
  | .ok (_, .file content _ _) => .ok content
  | .ok (_, .device .null) => .ok []
  | .ok (_, .device .full) => .ok []
  | .ok _ => .error .isADirectory

/-- One change made to a host from outside. -/
inductive Edit where
  /-- Write a file with a time, with the directories above it. -/
  | write (p : Path) (content : Bytes) (time : Instant)
  | setTime (p : Path) (time : Instant)
  | makeDirectories (p : Path)
  /-- Make a link, with the directories above it. -/
  | makeLink (p target : Path)
  | removeAll (p : Path)
  | rename (p p' : Path)

/-- The host after a change. -/
def edit (h : Host) : Edit → Except Errno Host
  | .write p content time => do
    let h ← h.makeDirectories (above p)
    h.write p content (some time)
  | .setTime p time => h.setTime p time
  | .makeDirectories p => h.makeDirectories p
  | .makeLink p target => do
    let h ← h.makeDirectories (above p)
    h.makeLink p target
  | .removeAll p => h.removeAll p
  | .rename p p' => h.rename p p'

end PollWatch.Host
