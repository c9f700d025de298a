import SourceDebugger.Registers
import SourceDebugger.System.Errno
import SourceDebugger.System.Signal

/-!
# Requests to the system

What the debugger asks of the system in order to trace a child: to start it, to look into it, to
let it go on and to wait for it. Every request has a type of answers. A system is anything that
answers requests; it may change with each of them.
-/

namespace SourceDebugger

/-- What is known of a child when the system reports a change. -/
inductive WaitStatus where
  /-- It ended by itself. -/
  | exited (code : Int)
  /-- A signal ended it. -/
  | ended (s : Signal)
  /-- It stands still because of a signal. -/
  | stopped (s : Signal)
  /-- Anything else, with its description. -/
  | unusual (description : String)
deriving DecidableEq, Inhabited

namespace WaitStatus

/-- Whether the child is gone, and its number free for others. -/
def isTerminal : WaitStatus → Bool
  | exited _ | ended _ => true
  | stopped _ | unusual _ => false

/-- The description of a change of the child with this number. -/
def describe (pid : Nat) : WaitStatus → String
  | exited code => s!"Exited(Pid({pid}), {code})"
  | ended s => s!"Signaled(Pid({pid}), {s.name}, false)"
  | stopped s => s!"Stopped(Pid({pid}), {s.name})"
  | unusual description => description

end WaitStatus

/-- A part of the memory of a process as the system lists it. -/
structure MemoryRange where
  /-- Where it starts. -/
  start : Addr
  /-- Where it starts in the file it comes from. -/
  offset : Nat
  /-- The file it comes from, if it comes from one. -/
  path : Option String
deriving DecidableEq, Inhabited

/-- A request to the system. -/
inductive Request where
  /-- Which thread asks. -/
  | currentThread
  /-- Starts a traced child that executes a program; the answer is its number. -/
  | start (arguments : List String)
  /-- Waits until the system reports a change of a child. -/
  | wait (pid : Nat)
  /-- Why the trap signal was sent that stopped a child. -/
  | trapCode (pid : Nat)
  /-- Reads a word of the memory of a child. -/
  | readWord (pid : Nat) (addr : Addr)
  /-- Writes a word of the memory of a child. -/
  | writeWord (pid : Nat) (addr : Addr) (value : UInt64)
  /-- Reads the registers of a child. -/
  | registers (pid : Nat)
  /-- Writes the registers of a child. -/
  | setRegisters (pid : Nat) (values : Registers)
  /-- Lets a child execute one instruction. -/
  | step (pid : Nat)
  /-- Lets a child go on, with a signal if there is one to deliver. -/
  | resume (pid : Nat) (s : Option Signal)
  /-- Ends a child. -/
  | kill (pid : Nat)
  /-- Ends a process and all that belong to its group. -/
  | killGroup (pid : Nat)
  /-- Reads from the memory of a process as from a file: as many of the wanted bytes as there are
  before the first one that cannot be read. A failure is described. -/
  | readMemory (pid : Nat) (addr : Addr) (count : Nat)
  /-- The parts of the memory of a process. -/
  | memoryRanges (pid : Nat)
  /-- The absolute path of a file, without detours. A failure is described. -/
  | canonicalPath (path : String)
  /-- What is at a path: nothing, or whether it is a regular file. -/
  | fileAt (path : String)
deriving DecidableEq, Inhabited

/-- The answers to a request. -/
def Request.Answer : Request → Type
  | currentThread => Nat
  | start _ => Except Errno Nat
  | wait _ => Except Errno WaitStatus
  | trapCode _ => Except Errno Int
  | readWord _ _ => Except Errno UInt64
  | writeWord _ _ _ => Except Errno Unit
  | registers _ => Except Errno Registers
  | setRegisters _ _ => Except Errno Unit
  | step _ => Except Errno Unit
  | resume _ _ => Except Errno Unit
  | kill _ => Except Errno Unit
  | killGroup _ => Except Errno Unit
  | readMemory _ _ _ => Except String (List UInt8)
  | memoryRanges _ => Except String (List MemoryRange)
  | canonicalPath _ => Except String String
  | fileAt _ => Option Bool

/-- A system, whose state is described by `ω`. -/
class System (ω : Type) where
  /-- Answers a request. -/
  perform : (r : Request) → ω → r.Answer × ω

end SourceDebugger
