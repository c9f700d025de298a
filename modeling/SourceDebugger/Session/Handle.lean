import SourceDebugger.Command.Basic
import SourceDebugger.Session.Step

/-!
# Executing commands

What each command of the operator does to a session and how it is answered.
-/

namespace SourceDebugger.Session

variable {σ : Type} [Tracee σ]

/-- Sets a breakpoint on a line. -/
def setBreakpoint (file : String) (line : UInt64) : Task σ Feedback := do
  let b ← onDebuggee (Debuggee.setUser (← get).index file line)
  return .breakpointSet (← get).breakpoints.user.length b.addr b.file b.line

/-- Sets a breakpoint on the first line behind the prologue of the function with a name. -/
def setFunctionBreakpoint (name : String) : Task σ Feedback := do
  let index := (← get).index
  match index.functionsNamed name with
  | [] => throw (.unknownFunction name)
  | f :: _ =>
    let location ← (index.functionEntry f : Except DebugError _)
    setBreakpoint location.file location.line

/-- The address of a line. -/
def find (file : String) (line : UInt64) : Task σ Feedback := do
  return .found (← ((← get).index.lookupLineAddress file line : Except DebugError _))

/-- Clears breakpoints of the operator. -/
def clearBreakpoint (target : ClearTarget) : Task σ Feedback := do
  match target with
  | .number n => return .breakpointsCleared [← onDebuggee (Debuggee.clearUser n)]
  | .all =>
    -- the operator is shown what there was before
    let cleared := (← get).breakpoints.user
    let _ ← onDebuggee Debuggee.clearAllUser
    return .breakpointsCleared cleared

/-- Starts the process again and sets the breakpoints of the operator in it, as far as their lines
still have an address. -/
def restart : Task σ Feedback := do
  onProcess Tracee.restart
  let (previous, debuggee) := (← get).debuggee.forget
  -- the signal was for the process that is gone
  modify fun s => { s with pendingSignal := none, debuggee }
  let index := (← get).index
  let armed ← previous.foldlM (fun n b =>
    tryCatch (do
      let _ ← onDebuggee (Debuggee.setUser index b.file b.line)
      -- a line may have no address any more, or its byte may not be writable
      return n + 1) fun _ => return n) 0
  return .restarted (Tracee.pid (← get).process) armed

/-- Disassembles the function at the current instruction. -/
def disassemble : Task σ Feedback := do
  let pc ← pc
  let s ← get
  let f ← (s.index.functionContaining pc : Except DebugError _)
  let length := ((f.highPc.distanceFrom? f.lowPc).getD 0).toNat
  let bytes ← observe (Tracee.readExact · f.lowPc length)
  -- the code is shown as the program has it, with a mark where a breakpoint is
  let code := s.breakpoints.unpatch f.lowPc bytes
  let d ← (Disassembly.disassemble code f.lowPc (s.breakpoints.map (·.addr)) : Except DebugError _)
  return .disassembly pc ((d.annotate s.index).markCurrent pc)

/-- Lists the source around a line, or around the current one. -/
def list (location : Option (String × UInt64)) (range : Option UInt64) : Task σ Feedback := do
  let s ← get
  let (file, line) ← match location with
    | some (file, line) => pure ((s.index.resolveFile? file).getD file, line)
    | none => do
      let pc ← pc
      let l ← (s.lineOf pc : Except DebugError _)
      pure (l.file, l.line)
  return .listing (← (Listing.read s.files file line (range.getD s.listRange) : Except DebugError _))

/-- The value of a variable. -/
def print (name : String) : Task σ Feedback := do
  let s ← get
  return .variableValue (← observe (VariableValue.read · s.index s.frames s.bias name))

/-- Executes a command. To leave the debugger is no command for a session. -/
def handle (fuel : Nat) : Command → Task σ Feedback
  | .setBreakpoint file line => setBreakpoint file line
  | .setFunctionBreakpoint name => setFunctionBreakpoint name
  | .find file line => find file line
  | .clearBreakpoint target => clearBreakpoint target
  | .listBreakpoints all => reading fun s => .breakpoints (s.breakpoints.listed all)
  | .backtrace => do
    let index := (← get).index
    return .backtrace (← observe (Backtrace.walk · index))
  | .resume => continueExecution
  | .step => stepLine fuel
  | .next => nextLine fuel
  | .stepInstruction => stepInstruction
  | .list location range => list location range
  | .restart => restart
  | .disassemble => disassemble
  | .print name => print name
  | .registers => do return .registers (← observe Tracee.registers)
  | .help => pure (.text Command.helpText)
  | .unsupported input => pure (.unsupported input)
  | .quit => pure .done

/-- Ends the process if it is still there. -/
def cleanup : Task σ Unit := do
  if Tracee.isAlive (← get).process then onProcess Tracee.kill

end SourceDebugger.Session
