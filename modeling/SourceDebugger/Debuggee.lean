import SourceDebugger.Breakpoint
import SourceDebugger.Index.Lookup
import SourceDebugger.Tracee

/-!
# Processes with breakpoints

A process together with the table of the breakpoints that are in its memory. Setting a breakpoint
saves the byte that it replaces and clearing it puts that byte back, so that the table always tells
what the program itself has in memory.
-/

namespace SourceDebugger

/-- The trap instruction. -/
def trapByte : UInt8 := 0xcc

/-- A process and the breakpoints in its memory. -/
structure Debuggee (σ : Type) where
  /-- The process. -/
  process : σ
  /-- The breakpoints. -/
  breakpoints : BreakpointTable

namespace Debuggee

variable {σ : Type} [Tracee σ]

/-- A process without breakpoints. -/
def ofProcess (p : σ) : Debuggee σ := ⟨p, []⟩

/-- An operation on the process alone. -/
def onProcess {α : Type} (x : Action σ α) : Action (Debuggee σ) α := fun d =>
  let (a, process) := x d.process
  (a, { d with process })

/-- Changes the table of breakpoints alone. -/
def modifyTable (f : BreakpointTable → BreakpointTable) : Action (Debuggee σ) Unit :=
  modify fun d => { d with breakpoints := f d.breakpoints }

/-- Sets a breakpoint, where there is none yet. -/
def arm (addr : Addr) (file : String) (line : UInt64) (kind : BreakpointKind) :
    Action (Debuggee σ) Breakpoint := do
  let d ← get
  -- a second breakpoint would save the trap of the first one as the program's byte
  if d.breakpoints.isArmed addr then throw (.duplicateBreakpoint addr.text)
  let bytes ← Tracee.readExact d.process addr 1
  onProcess (Tracee.writeMemory addr [trapByte])
  let breakpoint : Breakpoint := ⟨addr, bytes.headD 0, file, line, kind⟩
  modifyTable (· ++ [breakpoint])
  return breakpoint

/-- Sets a breakpoint of the operator on a line. -/
def setUser (index : DebugIndex) (file : String) (line : UInt64) :
    Action (Debuggee σ) Breakpoint := do
  let addr ← index.lookupBreakpointAddress file line
  let stored := (index.resolveFile? file).getD file
  -- the operator named a line, so the message does too
  tryCatch (arm addr stored line .user) fun
    | .duplicateBreakpoint _ => throw (.duplicateBreakpoint s!"{file}:{line.toNat}")
    | e => throw e

/-- Sets a breakpoint of the step engine. -/
def setInternal (index : DebugIndex) (addr : Addr) : Action (Debuggee σ) Unit := do
  -- no line has to be known where the step engine stops
  let location := (index.resolveAddress addr).toOption.getD ⟨"", 0⟩
  let _ ← arm addr location.file location.line .internal

/-- Clears the breakpoint at an address. -/
def clearAt (addr : Addr) : Action (Debuggee σ) Breakpoint := do
  match (← get).breakpoints.locate? addr with
  | none => throw (.breakpointNotArmed addr)
  | some breakpoint =>
    onProcess (Tracee.writeMemory addr [breakpoint.saved])
    modifyTable (·.without addr)
    return breakpoint

/-- Clears the breakpoint of the operator with a number. -/
def clearUser (number : UInt64) : Action (Debuggee σ) Breakpoint := do
  match (← get).breakpoints.numbered? number with
  | none => throw (.noSuchBreakpoint number)
  | some breakpoint => clearAt breakpoint.addr

/-- Clears all breakpoints of a kind, in the order in which they were set: how many there were. -/
def clearKind (kind : BreakpointKind) : Action (Debuggee σ) Nat := do
  let addrs := ((← get).breakpoints.filter (·.kind = kind)).map (·.addr)
  addrs.forM fun addr => do
    let _ ← clearAt addr
  return addrs.length

/-- Clears all breakpoints of the operator. -/
def clearAllUser : Action (Debuggee σ) Nat := clearKind .user

/-- Clears the breakpoints that the step engine left behind. -/
def clearInternal : Action (Debuggee σ) Nat := clearKind .internal

/-- Empties the table for a process with fresh memory: the breakpoints that the operator had set. -/
def forget (d : Debuggee σ) : BreakpointTable × Debuggee σ :=
  (d.breakpoints.user, { d with breakpoints := [] })

/-- Drops the breakpoints of the step engine from the table, for a process that is gone. -/
def discardInternal (d : Debuggee σ) : Debuggee σ := { d with breakpoints := d.breakpoints.user }

/-- Does something to the process while the breakpoint at an address is not in memory. Afterwards
the trap is put back, whether that failed or not, unless the process is gone. -/
def withDisarmed {α : Type} (addr : Addr) (x : Action σ α) : Action (Debuggee σ) α := do
  match (← get).breakpoints.locate? addr with
  | none => throw (.breakpointNotArmed addr)
  | some breakpoint =>
    onProcess (Tracee.writeMemory addr [breakpoint.saved])
    -- the outcome is kept, so that the trap comes back in any case
    let result ← onProcess (observing x)
    if Tracee.isAlive (← get).process then
      let rearmed ← onProcess (observing (Tracee.writeMemory addr [trapByte]))
      -- a failure of the operation itself comes before one to put the trap back
      let a ← result
      rearmed
      return a
    else result
where
  /-- The outcome of an operation, failed or not. -/
  observing {β : Type} (x : Action σ β) : Action σ (Except DebugError β) := fun p =>
    let (outcome, p) := x p
    (.ok outcome, p)

end Debuggee

end SourceDebugger
