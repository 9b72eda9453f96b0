import PollWatch.Shell.Action
import PollWatch.Shell.Utility
/-!
# Files and programs of a shell

How a file is opened for a redirection, where the program of a name is found, and how a utility
is run with the descriptors of the shell.
-/

namespace PollWatch.Shell

open Act

/-- Why a file could not be opened, in the words of the shell. -/
def openReason (creates : Bool) (n : Errno) : Chars :=
  if n = .notFound ∨ n = .notADirectory then
    (if creates then "Directory nonexistent" else "No such file").toList
  else (Errno.wording n.number).toList

/-- Open a file for reading or writing; the channel, or why it cannot be opened. -/
def openFile (kind : RedirectKind) (cs : Chars) : Act (Except Errno Channel) := do
  let p ← get
  let standard? : Option Nat := match String.ofList cs with
    | "/dev/stdin" => some 0
    | "/dev/stdout" => some 1
    | "/dev/stderr" => some 2
    | _ => none
  match standard?.bind fun fd => p.descriptors.lookup fd with
  | some c => return .ok c
  | none =>
    let h := p.machine.host
    let path := Path.ofBytes (toBytes cs)
    match h.place true path with
    | .error n => return .error n
    | .ok q =>
      let writes := kind ≠ .input
      let made : Except Errno Host :=
        match h.get? q with
        | some (.device _) => .ok h
        | some (.directory _) => if writes then .error .isADirectory else .ok h
        | some _ => if kind = .output then h.write path [] else .ok h
        | none => if writes then h.write path [] else .error .notFound
      match made with
      | .error n => return .error n
      | .ok h => do
        let (c, m) := { p.machine with host := h }.openPlace q (decide (kind = RedirectKind.append))
        set { p with machine := m }
        return .ok c

/-- Where a program of this name is found. -/
inductive Found where
  | utility (f : Utility.Call → Utility.Ending)
  /-- A program that calls other programs. -/
  | caller (name : Chars)
  /-- A file with commands. -/
  | script (path : Chars) (text : Chars)
  | denied
  | nowhere

/-- The last name of a path. -/
def baseName (cs : Chars) : Chars := (cs.reverse.takeWhile (· ≠ '/')).reverse

/-- What stands at a path to a program. -/
def Host.program (h : Host) (path : Chars) : Found :=
  let directory := path.take (path.length - (baseName path).length - 1)
  if Utility.directories.any (·.toList = directory) ∧ Utility.isInstalled (baseName path) then
    match Utility.ofName? (baseName path) with
    | some f => .utility f
    | none => .caller (baseName path)
  else
    match h.find true (.ofBytes (toBytes path)) with
    | .ok (_, .file content _ true) => .script path (ofBytes content)
    | .ok _ => .denied
    | .error n => if n = .accessDenied then .denied else .nowhere

/-- Where a command is found. -/
def Process.program (p : Process) (name : Chars) : Found :=
  if '/' ∈ name then Host.program p.machine.host name
  else
    let places := (Utility.cutAt ':' ((p.value? "PATH".toList).getD [])).map fun d =>
      if d = [] then name else d ++ '/' :: name
    let found := places.map (Host.program p.machine.host)
    let usable := found.find? fun
      | .nowhere => false
      | .denied => false
      | _ => true
    match usable with
    | some f => f
    | none =>
      if name ≠ [] ∧ found.any (fun | .denied => true | _ => false) then .denied else .nowhere

/-- Run a utility with the present descriptors. -/
def runUtility (f : Utility.Call → Utility.Ending) (name : Chars) (arguments : List Chars) :
    Act Unit := do
  let p ← get
  let input := match p.descriptors.lookup 0 with
    | some c => p.machine.available c
    | none => []
  let e := f { name := name, arguments := arguments, input := input, host := p.machine.host }
  let m := { p.machine with host := e.host }
  let m := match e.readsInput, p.descriptors.lookup 0 with
    | true, some c => m.consume c input.length
    | _, _ => m
  set { p with machine := m }
  let written ← write 1 e.output
  let _ ← write 2 e.errors
  match written with
  | .ok () => setStatus e.status
  | .error n => do
    let _ ← write 2 (name ++ (": write error: " ++ Errno.wording n.number ++ "\n").toList)
    setStatus 1

/-- The variables that programs get to see. -/
def Process.environment (p : Process) : List (Chars × Variable) :=
  p.bindings.filter (·.2.isExported)

/-- Words of a text, as they are handed to another program. -/
def inputWords (cs : Chars) : List Chars :=
  (Utility.cutAt ' ' (cs.map fun c => if c = '\n' ∨ c = '\t' then ' ' else c)).filter (· ≠ [])

/-- Assign to a variable that programs get to see. -/
def assignExported (name value : Chars) : Act Unit := do
  assign name value
  modify fun p =>
    p.setVariable name { (p.bindings.lookup name).getD {} with isExported := true }

end PollWatch.Shell
