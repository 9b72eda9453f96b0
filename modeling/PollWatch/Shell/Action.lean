import PollWatch.Shell.Builtin
/-!
# Carrying out actions

Ways to carry out an action: in the name of a command, with something of the process put back
afterwards, or in a child, of which only what it did to the machine and its status remain.
-/

namespace PollWatch.Shell

namespace Act

/-- Carry out an action and hand over what stopped it. -/
def attempt {α : Type} (a : Act α) : Act (Except Flow α) :=
  ExceptT.mk (do
    let r ← a.run
    return .ok r)

/-- Go on as an action did that has been carried out. -/
def resume {α : Type} : Except Flow α → Act α
  | .ok a => return a
  | .error f => throw f

/-- Carry out an action, and put some of the process back as it was before. -/
def keeping {α : Type} (restore : Process → Process → Process) (a : Act α) : Act α := do
  let before ← get
  let r ← attempt a
  modify (restore before)
  resume r

/-- Carry out an action whose status is looked at. -/
def tested (a : Act Unit) : Act Unit := do
  let before := (← get).isTested
  modify fun p => { p with isTested := true }
  let r ← attempt a
  modify fun p => { p with isTested := before }
  resume r

/-- Carry out an action in the name of a command. -/
def speaking {α : Type} (name : Chars) (a : Act α) : Act α :=
  keeping (fun before p => { p with speaker? := before.speaker? }) do
    modify fun p => { p with speaker? := some name }
    a

/-- Carry out an action with the present descriptors, which it may change for itself. -/
def keepingDescriptors {α : Type} (a : Act α) : Act α :=
  keeping (fun before p => { p with descriptors := before.descriptors }) a

/-- End the shell if a failure counts. -/
def checkFailure : Act Unit := do
  let p ← get
  if p.has 'e' ∧ p.isTested = false ∧ p.status ≠ 0 then stop .exits

/-- Put a descriptor onto a channel. -/
def connect (fd : Nat) (c : Channel) : Act Unit :=
  modify fun p => { p with descriptors := (fd, c) :: p.descriptors.filter (·.1 ≠ fd) }

/-- Make a pipe that holds a text. -/
def newPipe (cs : Chars) : Act Nat := do
  let p ← get
  let (n, m) := p.machine.take
  set { p with machine := { m with pipes := (n, cs) :: m.pipes } }
  return n

/-- Carry out an action in a child, which begins with a changed copy of this process. The answer
is the signal that ended the child, if one did; the status is the child's. -/
def inChild (change : Process → Process) (a : Act Unit) : Act (Option Nat) := do
  let p ← get
  let (n, m) := p.machine.take
  let copy := { p with
    machine := m
    number := n
    traps := p.traps.filter (·.2 = [])
    loops := 0
    jobs := [] }
  let (r, q) := (a.run).run (change copy)
  set { p with
    machine := { q.machine with host := { q.machine.host with here := p.machine.host.here } } }
  match r with
  | .error (.killed s) => do
    setStatus (128 + s)
    return some s
  | .error .unfinished => stop .unfinished
  | _ => do
    setStatus (q.status % 256)
    return none

/-- Say what ended a child. -/
def sayFarewell (killed? : Option Nat) : Act Unit := do
  match killed? with
  | some s =>
    if Signals.farewell s ≠ [] then
      let _ ← write 2 (Signals.farewell s ++ ['\n'])
  | none => pure ()

/-- The child in tail position takes this process with it when a signal ends it. -/
def followChild (tail : Bool) (killed? : Option Nat) : Act Unit := do
  match killed?, tail with
  | some s, true =>
    if (← get).traps = [] then stop (.killed s) else sayFarewell (some s)
  | _, _ => sayFarewell killed?

end Act

end PollWatch.Shell
