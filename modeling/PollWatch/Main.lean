import PollWatch.Host.Difference
import PollWatch.Program
/-!
# The command

Connects the program to a machine. Before each cycle the working directory and all below it are
read into a host; after it the streams are shown, and the changes that the command made to the
host are made to the machine. The program sees nothing outside its working directory.

A machine tells neither which files may be executed, so those that begin with `#!` count as such,
nor the time, so the clock stands at the newest time read. Links and times of choice cannot be
made on it: a new link is left out, and a new time is that of the machine.
-/

namespace PollWatch

namespace Machine

/-- A point of system time in nanoseconds. -/
def instant (t : IO.FS.SystemTime) : Instant := t.sec * Timestamp.perSecond + t.nsec.toNat

/-- A content that an interpreter is named for. -/
def isScript (b : Bytes) : Bool := (Bytes.ofString "#!").isPrefixOf b

/-- Put a node that was last modified at `t` on a host. -/
def put (h : Host) (q : Place) (n : Node) (t : Instant) : Host :=
  { h.set q n with clock := max h.clock t }

/-- Read an entry of the directory at a place, and all below it, into a host. What cannot be read
is left out. -/
partial def readEntry (above : Place) (h : Host) (e : IO.FS.DirEntry) : IO Host := do
  let q := above ++ (Path.ofString e.fileName).segments
  try
    let data ← e.path.symlinkMetadata
    let t := instant data.modified
    match data.type with
    | .file =>
      let b := (← IO.FS.readBinFile e.path).data.toList
      return put h q (.file b t (isScript b)) t
    | .dir => (← e.path.readDir).foldlM (readEntry q) (put h q (.directory t) t)
    | .symlink => return put h q (.link (Path.ofString (← IO.FS.realPath e.path).toString)) t
    | .other => return h
  catch _ => return h

/-- The host whose working directory is that of the machine. -/
def read : IO Host := do
  let d ← IO.currentDir
  let here := (Path.ofString d.toString).rest
  let t := instant (← d.metadata).modified
  (← d.readDir).foldlM (readEntry here) (Host.new here t)

/-- Make a change to the machine. -/
def change : Host.Edit → IO Unit
  | .write p content _ => do
    if let some w := p.toBytes.text? then IO.FS.writeBinFile w ⟨content.toArray⟩
  | .setTime p _ => do
    if let some w := p.toBytes.text? then IO.FS.writeBinFile w (← IO.FS.readBinFile w)
  | .makeDirectories p => do
    if let some w := p.toBytes.text? then IO.FS.createDirAll w
  | .makeLink _ _ => pure ()
  | .removeAll p => do
    if let some w := p.toBytes.text? then
      try IO.FS.removeFile w catch _ => IO.FS.removeDir w
  | .rename p p' => do
    if let (some v, some w) := (p.toBytes.text?, p'.toBytes.text?) then IO.FS.rename v w

/-- Write bytes to a stream. -/
def write (s : IO.FS.Stream) (b : Bytes) : IO Unit := do
  s.write ⟨b.toArray⟩
  s.flush

/-- Show the streams of a console, and make the changes to its host since `old`. The console that
is left has empty streams. -/
def settle (old : Host) (c : Console) : IO Console := do
  write (← IO.getStdout) c.output
  write (← IO.getStderr) c.messages
  for e in old.difference c.host do
    change e
  return { c with output := [], messages := [] }

/-- Follow a run to its end. -/
partial def follow (r : Run) : IO UInt32 := do
  unless r.isAtLimit do
    IO.sleep (min r.options.intervalMs (UInt32.size - 1)).toUInt32
  let h ← read
  match (r.withConsole { r.console with host := h }).next Console.surroundings with
  | .inl e =>
    let (code, c) := Program.close e
    let _ ← settle h c
    return code.toUInt32
  | .inr s => follow (s.withConsole (← settle h s.console))

/-- Start the program, and follow the run if one begins. -/
def start (words : List String) : IO UInt32 := do
  let h ← read
  let environment? := (← IO.getEnv "IFCHANGED_LOG").map Bytes.ofString
  match Program.start Console.surroundings (words.map Bytes.ofString) environment?
      { host := h } with
  | .inl (code, c) =>
    let _ ← settle h c
    return code.toUInt32
  | .inr r => follow (r.withConsole (← settle h r.console))

end Machine

end PollWatch

/-- Watch files, and run a command when one of them changes. -/
def main (words : List String) : IO UInt32 :=
  PollWatch.Machine.start ("ifchanged" :: words)
