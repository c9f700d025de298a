import SourceDebugger.Addr
import SourceDebugger.System.Errno

/-!
# Errors

The causes for which an operation of the debugger fails, and the one function that words them.
Failures to read the debug information end a run at its start; failed lookups, breakpoint
conflicts and failed unwinding are reported to the operator and the session goes on; a process
that is gone ends the session until a restart.
-/

namespace SourceDebugger

/-- The cause for which an operation of the debugger fails. -/
inductive DebugError where
  /-- A system call failed. -/
  | os (errno : Errno)
  /-- Reading or writing failed. -/
  | io (message : String)
  /-- The executable is not laid out as an object file. -/
  | objectFormat (message : String)
  /-- The debug information is not laid out as its format says. -/
  | debugFormat (message : String)
  /-- A text that has to go to the system holds a NUL byte at this position. -/
  | embeddedNul (position : Nat)
  /-- There is no file at the path. -/
  | executableDoesNotExist (path : String)
  /-- What is at the path is not a regular file. -/
  | executableIsNotAFile (path : String)
  /-- A source file could not be built. -/
  | build (message : String)
  /-- A section is there neither plain nor compressed. -/
  | missingSection (name : String)
  /-- The debug information contradicts itself. -/
  | malformedDebugInfo (message : String)
  /-- No function contains the address. -/
  | noSuchFunction (addr : Addr)
  /-- No function has the name. -/
  | unknownFunction (name : String)
  /-- The source line has no code. -/
  | noSuchSourceLine (file : String) (line : UInt64)
  /-- The address belongs to no source line. -/
  | noLineInfo (addr : Addr)
  /-- There already is a breakpoint at that place. -/
  | duplicateBreakpoint (place : String)
  /-- No breakpoint has this number. -/
  | noSuchBreakpoint (number : UInt64)
  /-- There is no breakpoint at the address. -/
  | breakpointNotArmed (addr : Addr)
  /-- No frame description covers the address. -/
  | noCoveringFrame (addr : Addr)
  /-- Several frame descriptions cover the address. -/
  | ambiguousFrame (addr : Addr)
  /-- The frame description gives no answer. -/
  | unresolvableFrame (message : String)
  /-- A call frame instruction that is not supported. -/
  | unsupportedOpcode (opcode : UInt8)
  /-- The data ends inside of the named item. -/
  | unexpectedEnd (item : String)
  /-- A variable length number does not fit into 64 bits. -/
  | leb128Overflow
  /-- A location operation that is not supported. -/
  | unsupportedLocation (opcode : UInt8)
  /-- No variable of that name is visible. -/
  | unknownVariable (name : String)
  /-- The variable has no single location. -/
  | noLocation (name : String)
  /-- The bytes at the address are no instruction. -/
  | undecodable (addr : Addr)
  /-- The debugged process has ended. -/
  | processGone
  /-- The debugged process was started by another thread. -/
  | wrongTracerThread
  /-- The debugged process stopped in a way that was not expected. -/
  | unexpectedStop (message : String)
deriving DecidableEq, Inhabited

namespace DebugError

/-- The text the operator sees. -/
def message : DebugError → String
  | os errno => "Os error: " ++ errno.text
  | io text => "Io error: " ++ text
  | objectFormat text => "Could not parse the executable: " ++ text
  | debugFormat text => "Error while reading DWARF: " ++ text
  | embeddedNul position =>
    s!"Could not convert to CString: nul byte found in provided data at position: {position}"
  | executableDoesNotExist path => "Executable does not exist: " ++ path
  | executableIsNotAFile path => "Executable is not a file: " ++ path
  | build text => "Could not build the target: " ++ text
  | missingSection name => "Can't find " ++ name ++ " or its compressed form"
  | malformedDebugInfo text => "Malformed debug information: " ++ text
  | noSuchFunction addr => "No function contains the address " ++ addr.text
  | unknownFunction name => "No function is called " ++ name
  | noSuchSourceLine file line => s!"can't find this source line {file}:{line.toNat}"
  | noLineInfo addr => "No line information for the address " ++ addr.text
  | duplicateBreakpoint place => "existed breakpoint " ++ place
  | noSuchBreakpoint number => s!"No breakpoint with the index {number.toNat}"
  | breakpointNotArmed addr => "No breakpoint is armed at " ++ addr.text
  | noCoveringFrame addr => "No frame description entry covers " ++ addr.text
  | ambiguousFrame addr => "More than one frame description entry covers " ++ addr.text
  | unresolvableFrame text => "Can't resolve the frame: " ++ text
  | unsupportedOpcode opcode =>
    "Unsupported call frame instruction " ++ Text.Hex.padded 2 opcode.toNat
  | unexpectedEnd item => "Unexpected end of data while decoding " ++ item
  | leb128Overflow => "LEB128 value does not fit into 64 bits"
  | unsupportedLocation opcode =>
    "Unsupported location expression opcode " ++ Text.Hex.padded 2 opcode.toNat
  | unknownVariable name => s!"No variable named {name} is visible here"
  | noLocation name => name ++ " has no single location here"
  | undecodable addr => "Could not decode the instruction at " ++ addr.text
  | processGone => "there is no process running"
  | wrongTracerThread => "The tracee was launched from another thread"
  | unexpectedStop text => "The tracee stopped unexpectedly: " ++ text

/-- The short name of a cause, with which the program reports why it gave up. -/
def tag : DebugError → String
  | os _ => "Os"
  | io _ => "Io"
  | objectFormat _ => "Object"
  | debugFormat _ => "Gimli"
  | embeddedNul _ => "CStringConv"
  | executableDoesNotExist _ => "ExecutableDoesNotExist"
  | executableIsNotAFile _ => "ExecutableIsNotAFile"
  | build _ => "Build"
  | missingSection _ => "MissingSection"
  | malformedDebugInfo _ => "DwarfParse"
  | noSuchFunction _ => "NoSuchFunction"
  | unknownFunction _ => "UnknownFunction"
  | noSuchSourceLine _ _ => "NoSuchSourceLine"
  | noLineInfo _ => "NoLineInfo"
  | duplicateBreakpoint _ => "DuplicateBreakpoint"
  | noSuchBreakpoint _ => "NoSuchBreakpoint"
  | breakpointNotArmed _ => "BreakpointNotArmed"
  | noCoveringFrame _ => "NoCoveringFrame"
  | ambiguousFrame _ => "AmbiguousFrame"
  | unresolvableFrame _ => "UnresolvableFrame"
  | unsupportedOpcode _ => "UnsupportedOpcode"
  | unexpectedEnd _ => "UnexpectedEof"
  | leb128Overflow => "Leb128Overflow"
  | unsupportedLocation _ => "UnsupportedLocation"
  | unknownVariable _ => "UnknownVariable"
  | noLocation _ => "NoLocation"
  | undecodable _ => "Decode"
  | processGone => "ProcessGone"
  | wrongTracerThread => "WrongTracerThread"
  | unexpectedStop _ => "UnexpectedStop"

/-- The causes that carry a text which the debugger words itself. -/
def textual : List (String → DebugError) :=
  [io, executableDoesNotExist, executableIsNotAFile, build,
    missingSection, malformedDebugInfo, unknownFunction, duplicateBreakpoint, unresolvableFrame,
    unexpectedEnd, unknownVariable, noLocation, unexpectedStop]

/-- The causes that carry an address. -/
def located : List (Addr → DebugError) :=
  [noSuchFunction, noLineInfo, breakpointNotArmed, noCoveringFrame, ambiguousFrame, undecodable]

/-- The causes that carry nothing. -/
def bare : List DebugError := [leb128Overflow, processGone, wrongTracerThread]

/-- The cause with a short name that carries a text. -/
def ofText? (tag text : String) : Option DebugError := (textual.map (· text)).find? (·.tag == tag)

/-- The cause with a short name that carries an address. -/
def ofAddr? (tag : String) (addr : Addr) : Option DebugError :=
  (located.map (· addr)).find? (·.tag == tag)

/-- The cause with a short name that carries nothing. -/
def ofTag? (tag : String) : Option DebugError := bare.find? (·.tag == tag)

/-- Whether the session cannot go on after this error. -/
def endsSession : DebugError → Bool
  | processGone => true
  | _ => false

/-- The cause behind the error number of a system call: a process that is not there is gone. -/
def ofErrno (errno : Errno) : DebugError :=
  if errno = Errno.esrch then processGone else os errno

end DebugError

end SourceDebugger
