import SourceDebugger.Session.Basic

/-!
# Running and stepping

How a session lets the process run. When the process executes one of the traps, its program counter
is moved back onto the breakpoint; whoever lets it go on from there executes the instruction of the
program first, while the breakpoint is not in memory.
-/

namespace SourceDebugger.Session

variable {σ : Type} [Tracee σ]

/-- The instruction at an address as the program has it. -/
def instructionAt (pc : Addr) : Task σ InstructionInfo := do
  let s ← get
  -- what the operator set is not what the program has there
  let bytes ← (Tracee.readMemory s.process pc X86.maxInstructionLength : Except DebugError _)
  (InstructionInfo.decode (s.breakpoints.unpatch pc bytes) pc : Except DebugError _)

/-- Executes the instruction of the program under the breakpoint at an address. -/
def stepOverBreakpoint (pc : Addr) : Task σ Stop :=
  onDebuggee (Debuggee.withDisarmed pc Tracee.singleStep)

/-- Executes one instruction of the program. -/
def stepOnce : Task σ Stop := do
  let pc ← pc
  if (← get).breakpoints.isArmed pc then stepOverBreakpoint pc else onProcess Tracee.singleStep

/-- Lets the process run, with the signal that stopped it. -/
def resumeProcess : Task σ Stop := fun s =>
  match Tracee.resume s.pendingSignal s.process with
  | none => none
  | some (stop, process) =>
    some (stop, { s with pendingSignal := none, debuggee := { s.debuggee with process } })

/-- Moves the program counter back onto the breakpoint on which the process just trapped: where it
stands then. -/
def rewindAfterTrap : Task σ Addr := do
  let pc ← pc
  match pc.sub? 1 with
  | some at_ =>
    if (← get).breakpoints.isArmed at_ then
      onProcess (Tracee.setPc at_)
      return at_
    else return pc
  | none => return pc

/-- The answer for a stop of the process. -/
def stopped (stop : Stop) : Task σ Feedback := do
  match stop with
  | .trap .breakpoint =>
    let pc ← rewindAfterTrap
    reading (·.stopFeedback pc)
  | .trap _ =>
    let pc ← pc
    reading (·.stopFeedback pc)
  | .signal s =>
    modify fun session => { session with pendingSignal := some s }
    return .signalled (← pc) s
  | .exited code =>
    discardInternal
    return .exited (Tracee.pid (← get).process) code
  | .killed s =>
    discardInternal
    return .killed (Tracee.pid (← get).process) s

/-- Runs on until a breakpoint, a signal or the end of the process. -/
def continueExecution : Task σ Feedback := do
  ensureAlive
  clearInternal
  let pc ← pc
  if (← get).breakpoints.isArmed pc then
    -- the breakpoint at hand has been reported before, so it is stepped over
    let stop ← stepOverBreakpoint pc
    if stop ≠ .trap .singleStep then return ← stopped stop
  stopped (← resumeProcess)

/-- Executes one instruction. -/
def stepInstruction : Task σ Feedback := do
  ensureAlive
  clearInternal
  stopped (← stepOnce)

/-- Runs until the process is back at `ret` with a stack pointer of at least `callerSp`; a lower
one belongs to a deeper call of the same function. The stop is given if it is another one. -/
def runBack (ret callerSp : Addr) : Nat → Task σ (Option Stop)
  | 0 => diverge
  | fuel + 1 => do
    let stop ← resumeProcess
    -- only a breakpoint can be the one at the way back
    if stop ≠ .trap .breakpoint then return some stop
    let pc ← rewindAfterTrap
    if pc ≠ ret then return some stop
    -- a lower stack pointer: the same function was called again and came back
    if callerSp ≤ (← observe Tracee.registers).stackPointer then return none
    let stop ← stepOverBreakpoint ret
    if stop ≠ .trap .singleStep then return some stop
    runBack ret callerSp fuel

/-- Runs a called function until it is back at `ret`, for which a breakpoint is set there if there
is none. The answer is given if something else stops the process. -/
def runToReturn (fuel : Nat) (ret callerSp : Addr) : Task σ (Option Feedback) := do
  let s ← get
  -- a breakpoint of the operator at the way back serves as well, and stays
  let own := !s.breakpoints.isArmed ret
  if own then onDebuggee (Debuggee.setInternal s.index ret)
  let outcome ← runBack ret callerSp fuel
  if own then
    -- of a process that is gone, only the table is left
    if Tracee.isAlive (← get).process then clearInternal else discardInternal
  match outcome with
  | none => return none
  | some (.trap .breakpoint) =>
    let pc ← pc
    return some (← reading (·.stopFeedback pc))
  | some stop => return some (← stopped stop)

/-- Steps until the line is another one than `start`. A call into code without lines is run until
it is back. -/
def stepFrom (start : SourceLocation) : Nat → Task σ Feedback
  | 0 => diverge
  | fuel + 1 => do
    let regs ← observe Tracee.registers
    let info ← instructionAt regs.pc
    let stop ← stepOnce
    if stop ≠ .trap .singleStep then return ← stopped stop
    let pc ← Session.pc
    match (← get).lineOf pc with
    | .ok location =>
      if location ≠ start then return ← reading (·.stopFeedback pc)
      stepFrom start fuel
    | .error _ =>
      -- code without lines that was not called is an end of the step
      if !info.isCall then return ← reading (·.stopFeedback pc)
      match ← runToReturn fuel (regs.pc + UInt64.ofNat info.length) regs.stackPointer with
      | some feedback => return feedback
      | none =>
        -- behind the call, which may have come back into code without lines
        let pc ← Session.pc
        match (← get).lineOf pc with
        | .ok location =>
          if location ≠ start then return ← reading (·.stopFeedback pc)
          stepFrom start fuel
        | .error _ => stepFrom start fuel

/-- Steps until the line is another one than `start`. Calls are run until they are back. -/
def nextFrom (start : SourceLocation) : Nat → Task σ Feedback
  | 0 => diverge
  | fuel + 1 => do
    let regs ← observe Tracee.registers
    let info ← instructionAt regs.pc
    let stop ← stepOnce
    if stop ≠ .trap .singleStep then return ← stopped stop
    let ret := regs.pc + UInt64.ofNat info.length
    let pc ← Session.pc
    -- a call whose target is the instruction behind it is back already
    if info.isCall ∧ pc ≠ ret then
      if let some feedback ← runToReturn fuel ret regs.stackPointer then return feedback
    let pc ← Session.pc
    -- an operator's breakpoint is an end even on the same line
    if (← get).breakpoints.user.any (·.addr = pc) then return ← reading (·.stopFeedback pc)
    match (← get).lineOf pc with
    | .ok location =>
      if location = start then nextFrom start fuel else reading (·.stopFeedback pc)
    | .error _ => reading (·.stopFeedback pc)

/-- Steps from the current line to another one, as `from_` says; there has to be a current line. -/
def stepLineWith (from_ : SourceLocation → Task σ Feedback) : Task σ Feedback := do
  ensureAlive
  clearInternal
  let pc ← pc
  match (← get).lineOf pc with
  | .ok start => from_ start
  | .error e => throw e

/-- Steps to the next line and enters calls. -/
def stepLine (fuel : Nat) : Task σ Feedback := stepLineWith (stepFrom · fuel)

/-- Steps to the next line and over calls. -/
def nextLine (fuel : Nat) : Task σ Feedback := stepLineWith (nextFrom · fuel)

end SourceDebugger.Session
