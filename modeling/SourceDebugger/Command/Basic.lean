/-!
# Commands

What the operator can ask the debugger to do.
-/

namespace SourceDebugger

/-- Which breakpoints are cleared. -/
inductive ClearTarget where
  /-- The one with a number. -/
  | number (n : UInt64)
  /-- All that the operator set. -/
  | all
deriving DecidableEq, Inhabited

/-- A command of the operator. -/
inductive Command where
  /-- Sets a breakpoint on a line. -/
  | setBreakpoint (file : String) (line : UInt64)
  /-- Sets a breakpoint at the start of a function. -/
  | setFunctionBreakpoint (name : String)
  /-- Asks for the first address of a line. -/
  | find (file : String) (line : UInt64)
  /-- Clears breakpoints. -/
  | clearBreakpoint (target : ClearTarget)
  /-- Lists the breakpoints, with those of the step engine if `all` is set. -/
  | listBreakpoints (all : Bool)
  /-- Shows the chain of calls. -/
  | backtrace
  /-- Runs on. -/
  | resume
  /-- Runs to the next line and enters calls. -/
  | step
  /-- Runs to the next line and over calls. -/
  | next
  /-- Executes one instruction. -/
  | stepInstruction
  /-- Lists the source around a line, or around the current one. -/
  | list (location : Option (String × UInt64)) (range : Option UInt64)
  /-- Starts the process again. -/
  | restart
  /-- Disassembles the current function. -/
  | disassemble
  /-- Shows a variable. -/
  | print (name : String)
  /-- Shows the registers. -/
  | registers
  /-- Asks for help. -/
  | help
  /-- Input that is no command. -/
  | unsupported (input : String)
  /-- Leaves the debugger. -/
  | quit
deriving DecidableEq, Inhabited

/-- What the commands do, as the operator is told. -/
def Command.helpText : String := String.intercalate "\n" [
  "b, break <file:line>      set a breakpoint on a source line",
  "b, break <function>       set a breakpoint on the first line of a function",
  "f, find <file:line>       show the first address of a source line",
  "bc, bclear <index|all>    clear the breakpoint with that index, or all of them",
  "bl [all]                  list breakpoints, \x60all\x60 includes the ones set by the stepper",
  "bt                        show the call stack",
  "c, continue               run until a breakpoint is hit or the process ends",
  "s, step                   run to the next source line, entering calls",
  "n, next                   run to the next source line, stepping over calls",
  "si, stepi                 execute one machine instruction",
  "l, list [file:line [n]]   show n lines of source around a line, or around the current one",
  "r, restart                start the process again, keeping the breakpoints",
  "disass                    disassemble the current function",
  "p, print <var>            show the value of a variable",
  "regs                      show the registers",
  "q, quit                   leave the debugger",
  "h, help                   show this text"]

end SourceDebugger
