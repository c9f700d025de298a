import SourceDebugger.Backtrace
import SourceDebugger.Breakpoint
import SourceDebugger.Disassembly
import SourceDebugger.Listing
import SourceDebugger.VariableValue

/-!
# Feedback

The answers to commands and the texts that the operator sees.
-/

namespace SourceDebugger

/-- The answer to a command. -/
inductive Feedback where
  /-- Nothing to tell. -/
  | done
  /-- A text. -/
  | text (t : String)
  /-- The command failed. -/
  | error (e : DebugError)
  /-- The input was no command. -/
  | unsupported (input : String)
  /-- A breakpoint was set. -/
  | breakpointSet (number : Nat) (addr : Addr) (file : String) (line : UInt64)
  /-- The address of a line. -/
  | found (addr : Addr)
  /-- Breakpoints with the numbers by which the operator knows them. -/
  | breakpoints (listed : List (Option Nat × Breakpoint))
  /-- Breakpoints were cleared. -/
  | breakpointsCleared (cleared : List Breakpoint)
  /-- The process stopped; with the source around the place, if it is known. -/
  | stopped (pc : Addr) (location : Option SourceLocation) (listing : Option Listing)
  /-- A signal stopped the process; it is delivered when the process runs on. -/
  | signalled (pc : Addr) (signal : Signal)
  /-- The process ended by itself. -/
  | exited (pid : Nat) (code : Int)
  /-- A signal ended the process. -/
  | killed (pid : Nat) (signal : Signal)
  /-- The process was started again, with some breakpoints. -/
  | restarted (pid breakpoints : Nat)
  /-- Lines of a source file. -/
  | listing (l : Listing)
  /-- The chain of calls. -/
  | backtrace (b : Backtrace)
  /-- The code of a function. -/
  | disassembly (pc : Addr) (d : Disassembly)
  /-- The value of a variable. -/
  | variableValue (v : VariableValue)
  /-- The registers. -/
  | registers (regs : Registers)
deriving Inhabited

namespace Feedback

/-- Failures that are worded as an answer and need no mark. -/
def isPlain : DebugError → Bool
  | .duplicateBreakpoint _ | .noSuchSourceLine _ _ | .processGone => true
  | _ => false

/-- The line of a failure. -/
def errorText (e : DebugError) : String :=
  (if isPlain e then "" else "Error: ") ++ e.message ++ "\n"

/-- The line of a breakpoint in a list. -/
def breakpointText : Option Nat × Breakpoint → String
  | (some n, b) => Text.padLeft 3 ' ' (toString n) ++ ". " ++ b.text ++ "\n"
  | (none, b) => "  -. " ++ b.text ++ "\n"

/-- The text of a stop. -/
def stopText (pc : Addr) : Option SourceLocation → Option Listing → String
  | _, some l => l.text
  | some location, none => s!"stopped at {pc.text} {location.text}\n"
  | none, none => s!"stopped at {pc.text}\n"

/-- The text that the operator sees. -/
def render : Feedback → String
  | done => ""
  | text t => t ++ "\n"
  | error e => errorText e
  | unsupported input => "unsupport cmd \x60" ++ input ++ "\x60\n"
  | breakpointSet _ _ file line => s!"tdb add {file}:{line.toNat} breakpoint successfully\n"
  | found addr => s!"Find Result as Addr: {addr.shortText}\n"
  | breakpoints listed =>
    if listed.isEmpty then "No breakpoints\n" else String.join (listed.map breakpointText)
  | breakpointsCleared cleared =>
    String.join (cleared.map fun b => s!"Deleted breakpoint at {b.file}:{b.line.toNat}\n")
  | stopped pc location l => stopText pc location l
  | signalled pc signal => s!"Program received signal {signal.name} at {pc.text}\n"
  | exited pid code => s!"Process {pid} has exited with status {code}\n"
  | killed pid signal => s!"Process {pid} was killed by {signal.name}\n"
  | restarted pid count => s!"Restarted as process {pid}, {count} breakpoint(s) armed again\n"
  | listing l => l.text
  | backtrace b => b.text
  | disassembly pc d => s!"current process pc = {pc.text}\n" ++ d.text
  | variableValue v => v.text ++ "\n"
  | registers regs => regs.text

/-- The answer to a command that can fail. -/
def ofResult : Except DebugError Feedback → Feedback
  | .ok f => f
  | .error e => error e

end Feedback

end SourceDebugger
